import Elchi.IntegrationStore
namespace Elchi.Integrations
open Webhooks (Json Fields truthy Bytes)
open Credentials
open Outbound (Net)

-- Where an integration keeps a secret.
def secretColumns : List String := ["api_key","api_secret","password","webhook_secret","webhook_secret_previous"]
inductive Place where
  | column (name : String)
  | credential (key : String)
deriving DecidableEq
def secretPlaces : List Place := secretColumns.map .column ++ encryptKeys.map .credential
def Place.encrypts : Place → Bool
  | .column name => encryptKeys.contains name
  | .credential _ => true
def secretText : Option Json → Option String
  | some (.str text) => truthy (some text)
  | _ => none
def held (row : Record) : Place → Option String
  | .column name => secretText (row name)
  | .credential key => secretText ((row "credentials").bind (Json.get key))

-- A save, and what it is asked to store: nothing for what it does not touch.
inductive Save where
  | create (dto : Record)
  | update (row dto : Record)
section Saves
variable {K : Type} (env : Env K) (draw : String → Iv)

def Save.run : Save → Except RpcError Record
  | .create dto => createIntegration env draw dto
  | .update row dto => updateIntegration env draw (some row) dto
def Save.before : Save → Record
  | .create _ => fun _ => none
  | .update row _ => row
def Save.requested : Save → Place → Option (Option String)
  | .create dto,.column name => some (if encryptKeys.contains name then secretText (some (either dto name)) else none)
  | .create dto,.credential key => some (secretText (Json.get key (.obj (mergedCredentials env dto))))
  | .update _ dto,.column name => match dto name with
    | some value => some (secretText (some value))
    | none => if encryptKeys.contains name then (givenText (credentialsOf dto) name).map fun text => truthy (some text) else none
  | .update _ dto,.credential key => (dto "credentials").map fun value => secretText (((fieldsOf value).map Json.obj).bind (Json.get key))

end Saves

-- What a save leaves at a place.
inductive Leaves {K : Type} (env : Env K) (before after : Option String) : Bool → Option (Option String) → Prop where
  | encrypted {value : Option String} (iv : Iv) (filled : truthy value = value) (same : after = encryptCredential env.cipher env.keys iv value) :
      Leaves env before after true (some value)
  | copied {value : Option String} (same : after = value) : Leaves env before after false (some value)
  | untouched {encrypts : Bool} (same : after = before) : Leaves env before after encrypts none

section Fields
variable {K : Type} {env : Env K} {draw : String → Iv}

theorem storedField_key (field : String × Json) : (storedField env draw field).1 = field.1 := by
  unfold storedField
  split
  · split <;> rfl
  · rfl
theorem get_stored (key : String) (fields : Fields) :
    Json.get key (.obj (fields.map (storedField env draw))) = (Json.get key (.obj fields)).map fun value => (storedField env draw (key,value)).2 := by
  simp only [Json.get,← List.map_reverse,List.find?_map]
  have same : ((fun field : String × Json => field.1 == key) ∘ storedField env draw) = fun field => field.1 == key := by
    funext field
    simp only [Function.comp,storedField_key]
  rw [same]
  cases found : fields.reverse.find? fun field => field.1 == key with
  | none => rfl
  | some field =>
    have mine : field.1 = key := by simpa using List.find?_some found
    simp only [Option.map_some,← mine]
theorem truthy_secret (value : Option Json) : truthy (secretText value) = secretText value := by
  unfold secretText
  split
  · exact truthy_again _
  · rfl
theorem encryptField_text {place : String} {value stored : Json} (done : encryptField env draw place (some value) = .ok stored) :
    secretText (some stored) = encryptCredential env.cipher env.keys (draw place) (secretText (some value)) := by
  cases value with
  | str text =>
    have same : stored = ((encryptCredential env.cipher env.keys (draw place) (some text)).map Json.str).getD .null := by
      cases done
      rfl
    have shown : secretText (some (.str text)) = truthy (some text) := rfl
    rw [same,shown,encrypt_truthy]
    have again := truthy_encrypt env.cipher env.keys (draw place) (some text)
    cases sealed : encryptCredential env.cipher env.keys (draw place) (some text) with
    | none => rfl
    | some out =>
      rw [sealed] at again
      exact again
  | _ =>
    simp only [encryptField] at done
    split at done
    · cases done
    · cases done
      rfl

end Fields

section Update
variable {K : Type} {env : Env K} {draw : String → Iv} {dto row next : Record} {name : String}

-- The columns an update sets that are no secrets.
def plainColumns : List String := ["type","base_url","api_url","status","is_active","auth_type","username","auth_url"]
theorem set_own (row : Record) (key : String) (value : Json) : row.set key value key = some value := if_pos rfl
theorem set_other {key : String} (apart : name ≠ key) (value : Json) : row.set key value name = row name := if_neg apart
theorem set_plain (apart : name ∉ plainColumns) {key : String} (plain : key ∈ plainColumns) (value : Json) : row.set key value name = row name :=
  set_other (fun same => apart (by rw [same]; exact plain)) value

theorem withType_kept (apart : name ∉ plainColumns) : withType env dto row name = row name := by
  cases given : dto "type" with
  | none => simp only [withType,given]
  | some value =>
    simp only [withType,given]
    exact set_plain apart (by decide) _
theorem withAuthType_kept (apart : name ∉ plainColumns) : withAuthType dto row name = row name := by
  have sets : ∀ value,row.set "auth_type" value name = row name := set_plain apart (by decide)
  generalize same : withAuthType dto row = next
  unfold withAuthType at same
  split at same
  · exact same ▸ sets _
  · exact same ▸ sets _
  · exact same ▸ rfl
theorem withStatus_kept (apart : name ∉ plainColumns) : withStatus env dto row name = row name := by
  have sets : ∀ status active,(row.set "status" status).set "is_active" active name = row name := fun _ _ =>
    (set_plain apart (by decide) _).trans (set_plain apart (by decide) _)
  generalize same : withStatus env dto row = next
  unfold withStatus at same
  split at same
  · exact same ▸ sets _ _
  · exact same ▸ sets _ _
  · exact same ▸ rfl
theorem withUrl_kept (apart : name ∉ plainColumns) (done : withUrl dto row = .ok next) : next name = row name := by
  simp only [withUrl] at done
  split at done
  · split at done
    · cases done
    · cases done
      rw [set_plain apart (by decide),set_plain apart (by decide)]
  · split at done
    · cases done
    · cases done
      rw [set_plain apart (by decide),set_plain apart (by decide)]
  · cases done
    rfl
theorem copyGiven_kept (apart : name ∉ plainColumns) {fields : Fields} {key : String} (plain : key ∈ plainColumns) :
    copyGiven fields key row name = row name := by
  cases given : givenText fields key with
  | none => simp only [copyGiven,given]
  | some text =>
    simp only [copyGiven,given]
    exact set_plain apart plain _

theorem encryptGiven_own {fields : Fields} {key : String} (done : encryptGiven env draw fields key row = .ok next) :
    Leaves env (secretText (row key)) (secretText (next key)) true ((givenText fields key).map fun text => truthy (some text)) := by
  unfold encryptGiven at done
  split at done
  · rename_i text given
    obtain ⟨stored,sealed,done⟩ := error_bind_parts done
    cases done
    rw [given,set_own]
    exact .encrypted _ (truthy_again _) (encryptField_text sealed)
  · rename_i none
    cases done
    rw [none]
    exact .untouched rfl
theorem encryptGiven_other {fields : Fields} {key : String} (apart : name ≠ key) (done : encryptGiven env draw fields key row = .ok next) :
    next name = row name := by
  unfold encryptGiven at done
  split at done
  · obtain ⟨stored,-,done⟩ := error_bind_parts done
    cases done
    exact set_other apart stored
  · cases done
    rfl
theorem withSecret_own {key : String} (done : withSecret env draw dto key row = .ok next) :
    match dto key with
    | some value => ∃ iv,secretText (next key) = encryptCredential env.cipher env.keys iv (secretText (some value))
    | none => next key = row key := by
  unfold withSecret at done
  split at done
  · rename_i none
    cases done
    rw [none]
  · rename_i value given
    obtain ⟨stored,sealed,done⟩ := error_bind_parts done
    cases done
    rw [given,set_own]
    exact ⟨_,encryptField_text sealed⟩
theorem withSecret_other {key : String} (apart : name ≠ key) (done : withSecret env draw dto key row = .ok next) : next name = row name := by
  unfold withSecret at done
  split at done
  · cases done
    rfl
  · obtain ⟨stored,-,done⟩ := error_bind_parts done
    cases done
    exact set_other apart stored

-- The parts of the credentials an update copies into columns, and what the update leaves at each place.
def sealedColumns : List String := ["api_key","api_secret","password"]
theorem fromCredentials_parts {fields : Fields} (done : fromCredentials env draw fields row = .ok next) :
    ∃ first second third fourth : Record,(∀ name,name ∉ plainColumns → first name = row name) ∧
      encryptGiven env draw fields "api_key" first = .ok second ∧ encryptGiven env draw fields "api_secret" second = .ok third ∧
      encryptGiven env draw fields "password" (copyGiven fields "username" third) = .ok fourth ∧ next = copyGiven fields "auth_url" fourth := by
  obtain ⟨second,sealedKey,done⟩ := error_bind_parts done
  obtain ⟨third,sealedSecret,done⟩ := error_bind_parts done
  obtain ⟨fourth,sealedPassword,done⟩ := error_bind_parts done
  cases done
  refine ⟨_,second,third,fourth,fun name apart => ?_,sealedKey,sealedSecret,sealedPassword,rfl⟩
  cases given : givenText fields "auth_type" with
  | none => rfl
  | some text => exact set_plain apart (by decide) _
theorem fromCredentials_kept {fields : Fields} (apart : name ∉ plainColumns) (unsealed : name ∉ sealedColumns)
    (done : fromCredentials env draw fields row = .ok next) : next name = row name := by
  obtain ⟨first,second,third,fourth,kept,sealedKey,sealedSecret,sealedPassword,rfl⟩ := fromCredentials_parts done
  have other : ∀ key ∈ sealedColumns,name ≠ key := fun key member same => unsealed (same ▸ member)
  rw [copyGiven_kept apart (by decide),encryptGiven_other (other _ (by decide)) sealedPassword,copyGiven_kept apart (by decide),
    encryptGiven_other (other _ (by decide)) sealedSecret,encryptGiven_other (other _ (by decide)) sealedKey,kept name apart]
theorem fromCredentials_leaves {fields : Fields} (member : name ∈ sealedColumns) (done : fromCredentials env draw fields row = .ok next) :
    Leaves env (secretText (row name)) (secretText (next name)) true ((givenText fields name).map fun text => truthy (some text)) := by
  obtain ⟨first,second,third,fourth,kept,sealedKey,sealedSecret,sealedPassword,rfl⟩ := fromCredentials_parts done
  simp only [sealedColumns,List.mem_cons,List.not_mem_nil,or_false] at member
  rcases member with rfl | rfl | rfl
  · rw [← kept _ (by decide),copyGiven_kept (by decide) (by decide),encryptGiven_other (by decide) sealedPassword,
      copyGiven_kept (by decide) (by decide),encryptGiven_other (by decide) sealedSecret]
    exact encryptGiven_own sealedKey
  · rw [← kept _ (by decide),← encryptGiven_other (by decide) sealedKey,copyGiven_kept (by decide) (by decide),
      encryptGiven_other (by decide) sealedPassword,copyGiven_kept (by decide) (by decide)]
    exact encryptGiven_own sealedSecret
  · have before : copyGiven fields "username" third "password" = third "password" := copyGiven_kept (by decide) (by decide)
    have after : copyGiven fields "auth_url" fourth "password" = fourth "password" := copyGiven_kept (by decide) (by decide)
    rw [← kept _ (by decide),← encryptGiven_other (by decide) sealedKey,← encryptGiven_other (by decide) sealedSecret,after,← before]
    exact encryptGiven_own sealedPassword

theorem withCredentials_kept (apart : name ∉ plainColumns) (unsealed : name ∉ sealedColumns) (other : name ≠ "credentials")
    (done : withCredentials env draw dto row = .ok next) : next name = row name := by
  unfold withCredentials at done
  split at done
  · cases done
    rfl
  · dsimp only at done
    split at done
    · cases done
      exact set_other other _
    · rw [fromCredentials_kept apart unsealed done]
      exact set_other other _
theorem withCredentials_own (done : withCredentials env draw dto row = .ok next) :
    next "credentials" = match dto "credentials" with
      | some value => some (normalizeCredentialsForStorage env draw (some value))
      | none => row "credentials" := by
  unfold withCredentials at done
  split at done
  · rename_i none
    cases done
    rw [none]
  · rename_i value given
    rw [given]
    dsimp only at done ⊢
    split at done
    · cases done
      exact set_own row _ _
    · rw [fromCredentials_kept (by decide) (by decide) done]
      exact set_own row _ _
theorem withCredentials_leaves (member : name ∈ sealedColumns) (done : withCredentials env draw dto row = .ok next) :
    Leaves env (secretText (row name)) (secretText (next name)) true ((givenText (credentialsOf dto) name).map fun text => truthy (some text)) := by
  have apart : name ≠ "credentials" := fun same => absurd (same ▸ member) (by decide)
  unfold withCredentials at done
  split at done
  · rename_i none
    cases done
    simp only [credentialsOf,none]
    exact .untouched rfl
  · rename_i value given
    dsimp only at done
    split at done
    · rename_i none
      cases done
      simp only [credentialsOf,given,Option.bind_some,none]
      rw [set_other apart]
      exact .untouched rfl
    · rename_i fields object
      have leaves := fromCredentials_leaves member done
      rw [set_other apart] at leaves
      simpa only [credentialsOf,given,Option.bind_some,object,Option.getD_some] using leaves

theorem update_parts (done : updateIntegration env draw (some row) dto = .ok next) :
    ∃ first second third fourth fifth : Record,(∀ name,name ∉ plainColumns → first name = (row.assign dto) name) ∧
      withCredentials env draw dto first = .ok second ∧ withSecret env draw dto "api_key" second = .ok third ∧
      withSecret env draw dto "api_secret" third = .ok fourth ∧ withSecret env draw dto "password" fourth = .ok fifth ∧
      next = withAuthType dto fifth := by
  unfold updateIntegration at done
  dsimp only at done
  split at done
  · cases done
  · obtain ⟨located,url,done⟩ := error_bind_parts done
    obtain ⟨second,credentials,done⟩ := error_bind_parts done
    obtain ⟨third,sealedKey,done⟩ := error_bind_parts done
    obtain ⟨fourth,sealedSecret,done⟩ := error_bind_parts done
    obtain ⟨fifth,sealedPassword,done⟩ := error_bind_parts done
    refine ⟨withStatus env dto located,second,third,fourth,fifth,fun name apart => ?_,credentials,sealedKey,sealedSecret,sealedPassword,?_⟩
    · rw [withStatus_kept apart,withUrl_kept apart url,withType_kept apart]
    · obtain ⟨-,-,done⟩ := error_bind_parts done
      obtain ⟨-,-,done⟩ := error_bind_parts done
      obtain ⟨-,-,done⟩ := error_bind_parts done
      cases done
      rfl

-- What an update leaves at a place.
theorem update_credentials (done : updateIntegration env draw (some row) dto = .ok next) :
    next "credentials" = match dto "credentials" with
      | some value => some (normalizeCredentialsForStorage env draw (some value))
      | none => row "credentials" := by
  obtain ⟨first,second,third,fourth,fifth,kept,credentials,sealedKey,sealedSecret,sealedPassword,rfl⟩ := update_parts done
  rw [withAuthType_kept (by decide),withSecret_other (by decide) sealedPassword,withSecret_other (by decide) sealedSecret,
    withSecret_other (by decide) sealedKey,withCredentials_own credentials,kept _ (by decide)]
  cases given : dto "credentials" with
  | none => simp only [Record.assign,given,Option.none_or]
  | some value => rfl
theorem update_copied (apart : name ∉ plainColumns) (unsealed : name ∉ sealedColumns) (other : name ≠ "credentials")
    (done : updateIntegration env draw (some row) dto = .ok next) : next name = (dto name).or (row name) := by
  obtain ⟨first,second,third,fourth,fifth,kept,credentials,sealedKey,sealedSecret,sealedPassword,rfl⟩ := update_parts done
  have others : ∀ key ∈ sealedColumns,name ≠ key := fun key member same => unsealed (same ▸ member)
  rw [withAuthType_kept apart,withSecret_other (others _ (by decide)) sealedPassword,withSecret_other (others _ (by decide)) sealedSecret,
    withSecret_other (others _ (by decide)) sealedKey,withCredentials_kept apart unsealed other credentials,kept _ apart]
  rfl
theorem update_sealed (member : name ∈ sealedColumns) (done : updateIntegration env draw (some row) dto = .ok next) :
    ∃ mid saved : Record,Leaves env (secretText ((dto name).or (row name))) (secretText (mid name)) true
        ((givenText (credentialsOf dto) name).map fun text => truthy (some text)) ∧
      withSecret env draw dto name mid = .ok saved ∧ next name = saved name := by
  obtain ⟨first,second,third,fourth,fifth,kept,credentials,sealedKey,sealedSecret,sealedPassword,rfl⟩ := update_parts done
  have plain : name ∉ plainColumns := by
    simp only [sealedColumns,List.mem_cons,List.not_mem_nil,or_false] at member
    rcases member with rfl | rfl | rfl <;> decide
  have leaves := withCredentials_leaves member credentials
  rw [kept _ plain] at leaves
  simp only [sealedColumns,List.mem_cons,List.not_mem_nil,or_false] at member
  rw [withAuthType_kept plain]
  rcases member with rfl | rfl | rfl
  · refine ⟨second,third,leaves,sealedKey,?_⟩
    rw [withSecret_other (by decide) sealedPassword,withSecret_other (by decide) sealedSecret]
  · rw [← withSecret_other (by decide) sealedKey] at leaves
    exact ⟨third,fourth,leaves,sealedSecret,withSecret_other (by decide) sealedPassword⟩
  · rw [← withSecret_other (by decide) sealedKey,← withSecret_other (by decide) sealedSecret] at leaves
    exact ⟨fourth,fifth,leaves,sealedPassword,rfl⟩

theorem stored_text {key : String} (member : key ∈ encryptKeys) (value : Option Json) :
    secretText (value.map fun value => (storedField env draw (key,value)).2) =
      encryptCredential env.cipher env.keys (draw ("credentials." ++ key)) (secretText value) := by
  have listed : encryptKeys.contains key = true := List.contains_iff_mem.mpr member
  cases value with
  | none => rfl
  | some value =>
    cases value with
    | str text =>
      have shown : secretText (some (.str text)) = truthy (some text) := rfl
      have again := truthy_encrypt env.cipher env.keys (draw ("credentials." ++ key)) (some text)
      simp only [Option.map_some,storedField,listed,if_true]
      rw [shown,encrypt_truthy]
      cases sealed : encryptCredential env.cipher env.keys (draw ("credentials." ++ key)) (some text) with
      | none =>
        have empty : truthy (some text) = none := by
          simpa [encryptCredential] using sealed
        exact empty
      | some out =>
        rw [sealed] at again
        exact again
    | _ =>
      simp only [Option.map_some,storedField,listed,if_true]
      rfl
theorem normalize_text {key : String} (member : key ∈ encryptKeys) (value : Json) :
    secretText (Json.get key (normalizeCredentialsForStorage env draw (some value))) =
      encryptCredential env.cipher env.keys (draw ("credentials." ++ key)) (secretText (((fieldsOf value).map Json.obj).bind (Json.get key))) := by
  cases object : fieldsOf value with
  | none =>
    simp only [normalizeCredentialsForStorage,Option.bind_some,object]
    rfl
  | some fields =>
    simp only [normalizeCredentialsForStorage,Option.bind_some,object,Option.map_some,Option.getD_some,get_stored]
    exact stored_text member _

theorem secret_cases {place : Place} (member : place ∈ secretPlaces) :
    (∃ name ∈ sealedColumns,place = .column name) ∨ (∃ name,(name = "webhook_secret" ∨ name = "webhook_secret_previous") ∧ place = .column name) ∨
      ∃ key ∈ encryptKeys,place = .credential key := by
  obtain columns | credentials := List.mem_append.mp member
  · obtain ⟨name,listed,rfl⟩ := List.mem_map.mp columns
    simp only [secretColumns,List.mem_cons,List.not_mem_nil,or_false] at listed
    rcases listed with rfl | rfl | rfl | webhook
    · exact .inl ⟨_,by decide,rfl⟩
    · exact .inl ⟨_,by decide,rfl⟩
    · exact .inl ⟨_,by decide,rfl⟩
    · exact .inr (.inl ⟨name,webhook,rfl⟩)
  · obtain ⟨key,listed,rfl⟩ := List.mem_map.mp credentials
    exact .inr (.inr ⟨key,listed,rfl⟩)
theorem sealed_encrypts (member : name ∈ sealedColumns) : encryptKeys.contains name = true := by
  simp only [sealedColumns,List.mem_cons,List.not_mem_nil,or_false] at member
  rcases member with rfl | rfl | rfl <;> decide
theorem webhook_plain (webhook : name = "webhook_secret" ∨ name = "webhook_secret_previous") :
    encryptKeys.contains name = false ∧ name ∉ plainColumns ∧ name ∉ sealedColumns ∧ name ≠ "credentials" := by
  rcases webhook with rfl | rfl <;> decide
theorem update_leaves (done : updateIntegration env draw (some row) dto = .ok next) {place : Place} (member : place ∈ secretPlaces) :
    Leaves env (held row place) (held next place) place.encrypts ((Save.update row dto).requested env place) := by
  obtain ⟨name,sealed,rfl⟩ | ⟨name,webhook,rfl⟩ | ⟨key,listed,rfl⟩ := secret_cases member
  · obtain ⟨mid,saved,leaves,secret,same⟩ := update_sealed sealed done
    have own := withSecret_own secret
    simp only [held,Place.encrypts,Save.requested,same,sealed_encrypts sealed,if_true]
    cases given : dto name with
    | some value =>
      rw [given] at own
      obtain ⟨iv,stored⟩ := own
      exact .encrypted iv (truthy_secret _) stored
    | none =>
      rw [given] at own leaves
      rw [show saved name = mid name from own]
      exact leaves
  · obtain ⟨plain,apart,unsealed,other⟩ := webhook_plain webhook
    simp only [held,Place.encrypts,Save.requested,update_copied apart unsealed other done,plain]
    cases given : dto name with
    | some value => exact .copied rfl
    | none => exact .untouched rfl
  · simp only [held,Place.encrypts,Save.requested,update_credentials done]
    cases given : dto "credentials" with
    | none => exact .untouched rfl
    | some value => exact .encrypted _ (truthy_secret _) (normalize_text listed value)
theorem create_leaves (done : createIntegration env draw dto = .ok next) {place : Place} (member : place ∈ secretPlaces) :
    Leaves env (held (fun _ => none) place) (held next place) place.encrypts ((Save.create dto).requested env place) := by
  unfold createIntegration at done
  dsimp only at done
  split at done
  · cases done
  split at done
  · cases done
  split at done
  · cases done
  obtain ⟨-,-,done⟩ := error_bind_parts done
  obtain ⟨-,-,done⟩ := error_bind_parts done
  obtain ⟨-,-,done⟩ := error_bind_parts done
  obtain ⟨apiKey,sealedKey,done⟩ := error_bind_parts done
  obtain ⟨apiSecret,sealedSecret,done⟩ := error_bind_parts done
  obtain ⟨password,sealedPassword,done⟩ := error_bind_parts done
  cases done
  obtain ⟨name,sealed,rfl⟩ | ⟨name,webhook,rfl⟩ | ⟨key,listed,rfl⟩ := secret_cases member
  · simp only [Place.encrypts,Save.requested,sealed_encrypts sealed,if_true]
    simp only [sealedColumns,List.mem_cons,List.not_mem_nil,or_false] at sealed
    rcases sealed with rfl | rfl | rfl
    · exact .encrypted _ (truthy_secret _) (encryptField_text sealedKey)
    · exact .encrypted _ (truthy_secret _) (encryptField_text sealedSecret)
    · exact .encrypted _ (truthy_secret _) (encryptField_text sealedPassword)
  · simp only [Place.encrypts,Save.requested,(webhook_plain webhook).1]
    rcases webhook with rfl | rfl
    · exact .copied rfl
    · exact .copied rfl
  · exact .encrypted _ (truthy_secret _) (normalize_text listed (.obj (mergedCredentials env dto)))

end Update

-- How the text at a place came about: a value that was sealed under a key of the time.
structure Origin (K : Type) where
  key : K
  iv : Iv
  value : String
  plain : marked value = false
section Rest
variable {K : Type}

def Origin.text (cipher : Cipher K) (origin : Origin K) : String := sealText cipher origin.key origin.iv origin.value
def Origin.ciphertext (cipher : Cipher K) (origin : Origin K) (key : K) : Bytes := cipher.encrypt key origin.iv.val (utf8 origin.value)

-- What a place holds of the credential it is to keep: a ciphertext under the current key that is not
-- the credential and reads as it.
def Secured (env : Env K) (stored : Option String) : Option String → Prop
  | none => stored = none
  | some value => (∃ iv,stored = some (sealText env.cipher env.keys.primary iv value)) ∧ stored ≠ some value ∧
      decryptCredential env.cipher env.keys stored = some value
def wanted (env : Env K) (save : Save) (origin : Place → Option (Origin K)) (place : Place) : Option String :=
  (save.requested env place).getD ((origin place).map (·.value))
structure Confidential (env : Env K) (save : Save) (origin : Place → Option (Origin K)) (after : Record) : Prop where
  reads : ∀ place ∈ secretPlaces,∀ source ∈ origin place,decryptCredential env.cipher env.keys (held save.before place) = some source.value
  writes : ∀ place ∈ secretPlaces,Secured env (held after place) (wanted env save origin place)

-- The current key does not decrypt a text of the key before to something else; no webhook secret and
-- no text that looks encrypted is stored; and what is not stored anew is under the current key.
def Readable (env : Env K) (source : Origin K) : Prop :=
  ∀ text ∈ tryKey env.cipher source.iv.val (source.ciphertext env.cipher source.key) env.keys.primary,text = source.value
def Storable (env : Env K) (place : Place) (source : Option (Origin K)) : Option (Option String) → Prop
  | some (some value) => place.encrypts = true ∧ marked value = false
  | some none => True
  | none => ∀ origin ∈ source,origin.ciphertext env.cipher env.keys.primary = origin.ciphertext env.cipher origin.key

variable {env : Env K}

theorem reads_exactly {source : Origin K} (known : source.key = env.keys.primary ∨ env.keys.previous = some source.key) :
    decryptCredential env.cipher env.keys (some (source.text env.cipher)) = some source.value ↔ Readable env source := by
  obtain same | kept := known
  · refine iff_of_true ?_ fun text tried => ?_
    · rw [Origin.text,same]
      exact seal_round_trip source.iv source.value
    · rw [Origin.ciphertext,same,try_own] at tried
      exact (Option.some_inj.mp tried).symm
  · exact seal_rotated kept source.iv source.value
theorem seal_differs (key : K) (iv : Iv) {value : String} (plain : marked value = false) : sealText env.cipher key iv value ≠ value := by
  intro same
  have both := seal_marked env.cipher key iv value
  rw [same,plain] at both
  cases both
theorem seal_secured (iv : Iv) {value : String} (plain : marked value = false) :
    Secured env (some (sealText env.cipher env.keys.primary iv value)) (some value) :=
  ⟨⟨iv,rfl⟩,fun same => seal_differs env.keys.primary iv plain (Option.some_inj.mp same),seal_round_trip iv value⟩
theorem leaves_secured {place : Place} {source : Option (Origin K)} {before after : Option String} {requested : Option (Option String)}
    (stored : before = source.map (Origin.text env.cipher)) (leaves : Leaves env before after place.encrypts requested) :
    Secured env after (requested.getD (source.map (·.value))) ↔ Storable env place source requested := by
  generalize kind : place.encrypts = encrypts at leaves
  cases leaves with
  | encrypted iv filled same =>
    rename_i value
    cases value with
    | none => exact iff_of_true (by rw [same]; rfl) trivial
    | some value =>
      rw [encryptCredential,filled,Option.map_some] at same
      simp only [Option.getD_some,Storable,kind,true_and]
      constructor
      · intro secured
        by_contra looks
        rw [Bool.not_eq_false] at looks
        rw [if_pos looks] at same
        exact secured.2.1 same
      · intro plain
        rw [if_neg (by rw [plain]; exact Bool.false_ne_true)] at same
        exact same ▸ seal_secured iv plain
  | copied same =>
    rename_i value
    cases value with
    | none => exact iff_of_true same trivial
    | some value => exact iff_of_false (fun secured => secured.2.1 same) fun storable => Bool.false_ne_true (kind.symm.trans storable.1)
  | untouched same =>
    rw [same,stored]
    cases source with
    | none => exact iff_of_true rfl fun origin absent => by cases absent
    | some source =>
      simp only [Option.map_some,Option.getD_none,Storable,Option.mem_some_iff,forall_eq']
      constructor
      · intro secured
        obtain ⟨iv,sealed⟩ := secured.1
        exact (seal_injective (Option.some_inj.mp sealed)).symm
      · intro current
        have again : source.text env.cipher = sealText env.cipher env.keys.primary source.iv source.value :=
          congrArg (fun bytes => String.ofList (mark ++ Webhooks.hexText source.iv.val ++ ':' :: Webhooks.hexText bytes)) current.symm
        rw [again]
        exact seal_secured source.iv source.plain

-- Every save that succeeds keeps the credentials confidential exactly under that condition.
theorem credentials_confidential {draw : String → Iv} {save : Save} {origin : Place → Option (Origin K)} {after : Record}
    (saved : save.run env draw = .ok after)
    (stored : ∀ place ∈ secretPlaces,held save.before place = (origin place).map (Origin.text env.cipher))
    (known : ∀ place ∈ secretPlaces,∀ source ∈ origin place,source.key = env.keys.primary ∨ env.keys.previous = some source.key) :
    Confidential env save origin after ↔ ∀ place ∈ secretPlaces,
      (∀ source ∈ origin place,Readable env source) ∧ Storable env place (origin place) (save.requested env place) := by
  have leaves : ∀ place ∈ secretPlaces,Leaves env (held save.before place) (held after place) place.encrypts (save.requested env place) := by
    cases save with
    | create dto =>
      have done : createIntegration env draw dto = .ok after := saved
      exact fun place member => create_leaves done member
    | update row dto =>
      have done : updateIntegration env draw (some row) dto = .ok after := saved
      exact fun place member => update_leaves done member
  have reads : ∀ place ∈ secretPlaces,∀ source ∈ origin place,
      decryptCredential env.cipher env.keys (held save.before place) = some source.value ↔ Readable env source := by
    intro place member source here
    rw [stored place member,Option.mem_def.mp here]
    exact reads_exactly (known place member source here)
  constructor
  · intro confidential place member
    exact ⟨fun source here => (reads place member source here).mp (confidential.reads place member source here),
      (leaves_secured (stored place member) (leaves place member)).mp (confidential.writes place member)⟩
  · intro each
    exact ⟨fun place member source here => (reads place member source here).mpr ((each place member).1 source here),
      fun place member => (leaves_secured (stored place member) (leaves place member)).mpr (each place member).2⟩

end Rest

-- A cipher that decrypts under any key, like CBC without authentication, to something else.
def looseCipher : Cipher UInt8 where
  encrypt key _ plain := 0 :: plain.map (· ^^^ key)
  decrypt key _ encrypted := some (encrypted.tail.map (· ^^^ key))
  inverts key _ plain _ := by simp [List.map_map,Function.comp_def,UInt8.xor_assoc]
  padded _ _ _ := List.cons_ne_nil _ _
def zeroIv : Iv := ⟨List.replicate 16 0,rfl⟩
def carrierNet : Net := ⟨fun text => if text = "https://api.carrier.uz" then some ⟨"https:","api.carrier.uz"⟩ else none,fun _ => some ["93.184.216.34"],false⟩
def rotatedEnv : Env UInt8 where
  net := carrierNet
  cipher := looseCipher
  keys := ⟨2,some 1⟩
  lower text := text
  serializedLength _ := 0
  slugTaken _ := false
def carrierRow (key : UInt8) : Record := Record.of [("slug",.str "carrier"),("api_url",.str "https://api.carrier.uz"),
  ("api_key",.str (sealText looseCipher key zeroIv "key-1"))]
def carrierOrigin (key : UInt8) : Place → Option (Origin UInt8)
  | .column "api_key" => some ⟨key,zeroIv,"key-1",by decide⟩
  | _ => none
theorem carrier_stored (key : UInt8) : ∀ place ∈ secretPlaces,
    held (carrierRow key) place = (carrierOrigin key place).map (Origin.text looseCipher) := by
  intro place member
  have sealed : held (carrierRow key) (.column "api_key") = some (sealText looseCipher key zeroIv "key-1") := seal_truthy key zeroIv "key-1"
  simp only [secretPlaces,secretColumns,encryptKeys,List.map_cons,List.map_nil,List.cons_append,List.nil_append,List.mem_cons,
    List.not_mem_nil,or_false] at member
  rcases member with rfl | rfl | rfl | rfl | rfl | rfl | rfl | rfl | rfl | rfl
  · exact sealed
  all_goals rfl

-- A password that looks encrypted and a webhook secret are stored as they are, and the key sealed
-- before the rotation is neither read nor sealed anew.
def secretsGiven : Save := .update (carrierRow 1) (Record.of [("password",.str "enc:hunter2"),("webhook_secret",.str "whsec")])
theorem secrets_in_clear : ∃ after,secretsGiven.run rotatedEnv (fun _ => zeroIv) = .ok after ∧
    held after (.column "password") = some "enc:hunter2" ∧ held after (.column "webhook_secret") = some "whsec" ∧
    held after (.column "api_key") = some (sealText looseCipher 1 zeroIv "key-1") ∧
    decryptCredential looseCipher rotatedEnv.keys (held (carrierRow 1) (.column "api_key")) = some "hfz.2" ∧
    ¬ Confidential rotatedEnv secretsGiven (carrierOrigin 1) after := by
  refine ⟨_,rfl,by decide,by decide,by decide,by decide,fun confidential => ?_⟩
  have secured := confidential.writes (.column "webhook_secret") (by decide)
  exact secured.2.1 rfl

-- A new password beside a key that is under the current key already.
def passwordGiven : Save := .update (carrierRow 2) (Record.of [("password",.str "s3cret")])
theorem password_confidential : ∃ after,passwordGiven.run rotatedEnv (fun _ => zeroIv) = .ok after ∧
    Confidential rotatedEnv passwordGiven (carrierOrigin 2) after := by
  have current : ∀ place,∀ source ∈ carrierOrigin 2 place,source.key = rotatedEnv.keys.primary := fun place source here => by
    unfold carrierOrigin at here
    split at here
    · cases here
      rfl
    · cases here
  obtain ⟨after,ran⟩ : ∃ after,passwordGiven.run rotatedEnv (fun _ => zeroIv) = .ok after := ⟨_,rfl⟩
  refine ⟨after,ran,(credentials_confidential ran (carrier_stored 2) fun place _ source here => .inl (current place source here)).mpr
    fun place member => ⟨fun source here text tried => ?_,?_⟩⟩
  · rw [Origin.ciphertext,current place source here] at tried
    exact (Option.some_inj.mp ((try_own rotatedEnv.keys.primary source.iv source.value).symm.trans tried)).symm
  · have untouched : passwordGiven.requested rotatedEnv place = none →
        Storable rotatedEnv place (carrierOrigin 2 place) (passwordGiven.requested rotatedEnv place) := fun none => by
      rw [none]
      intro source here
      rw [current place source here]
    simp only [secretPlaces,secretColumns,encryptKeys,List.map_cons,List.map_nil,List.cons_append,List.nil_append,List.mem_cons,
      List.not_mem_nil,or_false] at member
    rcases member with rfl | rfl | rfl | rfl | rfl | rfl | rfl | rfl | rfl | rfl
    · exact untouched rfl
    · exact untouched rfl
    · exact ⟨rfl,by decide⟩
    all_goals exact untouched rfl

end Elchi.Integrations

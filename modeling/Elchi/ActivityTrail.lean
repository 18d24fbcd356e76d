import Elchi.ActivityLog
namespace Elchi.Activity
open Diffs

variable {a b : JsValue} {input : ActivityChangeInput} {w : Write} {serviceName : Option String} {watched : String → Prop}

-- A snapshot as a jsonb column would keep each of its fields, and a row as the change it wrote down.
def view (record : Option Record) (key : String) : Option (Option Kept) := kept ((record.getD []).get key)
def rowChange (row : ActivityLog) : Change String (Option (Option Kept)) where
  keys := (row.old_value.getD []).map (·.1) ++ (row.new_value.getD []).map (·.1)
  before key := some ((row.old_value.getD []).lookup key)
  after key := some ((row.new_value.getD []).lookup key)

theorem strictEqual_eq (same : strictEqual a b = true) : a = b := by
  simp only [strictEqual,Bool.and_eq_true,decide_eq_true_eq] at same
  exact same.1
theorem kept_object (object : typeof a = .object) (value : a ≠ .null) : kept a = (stringify a).map (·.map .text) := by
  cases a with
  | null => exact absurd rfl value
  | date _ _ => rfl
  | object _ _ => rfl
  | _ => cases object
-- What computeDiff takes for equal is kept alike, so leaving it out loses nothing.
theorem equal_kept (same : equal a b = true) : kept a = kept b := by
  unfold equal at same
  split at same
  · rename_i strict
    rw [strictEqual_eq strict]
  split at same
  · rw [strictEqual_eq same]
  rename_i present
  simp only [not_or] at present
  split at same
  · simp only [Bool.and_eq_true,beq_iff_eq] at same
    rename_i time _ other _
    obtain ⟨-,rfl⟩ := same
    cases time <;> rfl
  · split at same
    · cases same
    rename_i alike
    split at same
    · rename_i object
      simp only [Bool.and_eq_true,beq_iff_eq] at same
      have other : typeof b = .object := by
        rw [←of_not_not alike]
        exact object
      rw [kept_object object present.1,kept_object other present.2.1,same.2]
    · cases same

-- The fields a diff lists: of those not ignored, all that differ.
def changed (before after : Option Record) (ignore : List String) : List String :=
  ((before.getD []).map (·.1) ++ ((after.getD []).map (·.1)).filter fun key => !((before.getD []).map (·.1)).contains key).filter
    fun key => !(DEFAULT_IGNORED_FIELDS ++ ignore).contains key && !equal ((before.getD []).get key) ((after.getD []).get key)
theorem get_unlisted {record : Record} {key : String} (missing : key ∉ record.map (·.1)) : record.get key = .undefined := by
  have absent : record.lookup key = none := by
    rw [List.lookup_eq_none_iff]
    intro field inside
    exact bne_iff_ne.mpr fun same => missing (List.mem_map.mpr ⟨field,inside,same.symm⟩)
  rw [Record.get,absent]
  rfl
theorem changed_exact {before after : Option Record} {ignore : List String} {key : String}
    (seen : key ∉ DEFAULT_IGNORED_FIELDS ++ ignore) :
    key ∈ changed before after ignore ↔ equal ((before.getD []).get key) ((after.getD []).get key) = false := by
  unfold changed
  rw [List.mem_filter]
  have unseen : (DEFAULT_IGNORED_FIELDS ++ ignore).contains key = false := by simpa using seen
  simp only [unseen,Bool.not_false,Bool.true_and,Bool.not_eq_true']
  constructor
  · exact fun listed => listed.2
  · intro differ
    refine ⟨?_,differ⟩
    by_contra missing
    rw [List.mem_append,not_or] at missing
    have second : key ∉ (after.getD []).map (·.1) := by
      intro inside
      exact missing.2 (List.mem_filter.mpr ⟨inside,by simpa using missing.1⟩)
    rw [get_unlisted missing.1,get_unlisted second] at differ
    cases differ

theorem serialize_exact {keys : List String} {field : String → JsValue} {stored : KeptRecord}
    (written : serialize (keys.map fun key => (key,field key)) = some stored) (key : String) :
    (key ∈ keys → kept (field key) = some (stored.lookup key)) ∧ (key ∉ keys → stored.lookup key = none) := by
  induction keys generalizing stored with
  | nil =>
    cases written
    exact ⟨fun inside => (List.not_mem_nil inside).elim,fun _ => rfl⟩
  | cons first rest ih =>
    rw [List.map_cons,serialize] at written
    simp only [Option.bind_eq_bind,Option.bind_eq_some_iff,Option.pure_def,Option.some.injEq] at written
    obtain ⟨value,here,others,later,rfl⟩ := written
    obtain ⟨inside,outside⟩ := ih later
    by_cases same : key = first
    · subst same
      refine ⟨fun _ => ?_,fun missing => (missing List.mem_cons_self).elim⟩
      rw [here]
      cases value with
      | some value => simp
      | none =>
        by_cases again : key ∈ rest
        · rw [←here,inside again]
          rfl
        · simpa using (outside again).symm
    · have skip : ((value.map (first,·)).toList ++ others).lookup key = others.lookup key := by
        cases value with
        | none => rfl
        | some value => simp [List.lookup_cons,beq_false_of_ne same]
      rw [skip,List.mem_cons]
      exact ⟨fun listed => inside (listed.resolve_left same),fun missing => outside fun listed => missing (.inr listed)⟩

theorem diff_before : input.diff.before = (changed input.old_value input.new_value (input.ignore_fields.getD [])).map
    fun key => (key,(input.old_value.getD []).get key) := rfl
theorem diff_after : input.diff.after = (changed input.old_value input.new_value (input.ignore_fields.getD [])).map
    fun key => (key,(input.new_value.getD []).get key) := rfl

-- A row says what happened to every field that is not ignored: a field that is not listed in it is
-- kept alike before and after.
theorem row_describes {oldValue newValue : KeptRecord} (before : serialize input.diff.before = some oldValue)
    (after : serialize input.diff.after = some newValue)
    (seen : ∀ key,watched key → key ∉ DEFAULT_IGNORED_FIELDS ++ input.ignore_fields.getD []) {row : ActivityLog}
    (old : row.old_value = some oldValue) (new : row.new_value = some newValue) :
    Describes watched (rowChange row) (view input.old_value) (view input.new_value) := by
  rw [diff_before] at before
  rw [diff_after] at after
  have same : ∀ key,watched key → key ∉ changed input.old_value input.new_value (input.ignore_fields.getD []) →
      view input.old_value key = view input.new_value key := by
    intro key inside unlisted
    rw [changed_exact (seen key inside),Bool.not_eq_false] at unlisted
    exact equal_kept unlisted
  have listed : ∀ key,key ∈ (rowChange row).keys ↔ oldValue.lookup key ≠ none ∨ newValue.lookup key ≠ none := by
    intro key
    simp only [rowChange,old,new,Option.getD_some,List.mem_append,ne_eq,List.lookup_eq_none_iff]
    simp
  constructor
  · intro key inside here
    have present : key ∈ changed input.old_value input.new_value (input.ignore_fields.getD []) := by
      by_contra missing
      rcases (listed key).mp here with first | second
      · exact first ((serialize_exact before key).2 missing)
      · exact second ((serialize_exact after key).2 missing)
    simp only [rowChange,old,new,Option.getD_some]
    exact ⟨((serialize_exact before key).1 present).symm,((serialize_exact after key).1 present).symm⟩
  · intro key inside absent
    by_cases present : key ∈ changed input.old_value input.new_value (input.ignore_fields.getD [])
    · -- the field differs, and neither side of it can be kept
      rw [listed,not_or,not_not,not_not] at absent
      unfold view
      rw [(serialize_exact before key).1 present,(serialize_exact after key).1 present,absent.1,absent.2]
    · exact same key inside present

-- A call of logChange as it was made, and the row it leaves if it leaves one.
structure Call where
  input : ActivityChangeInput
  w : Write
deriving DecidableEq
def Call.row (serviceName : Option String) (call : Call) : Option ActivityLog :=
  if call.input.diff.before.isEmpty && call.input.diff.after.isEmpty then none else logged serviceName call.w call.input.logInput
def Call.concerns (entityType : String) (entityId : EntityId) (call : Call) : Bool :=
  call.input.entity_type == entityType && call.input.entity_id.toText == entityId.toText
-- The insert went through: what the row is made of can be written, and the database took it.
def Call.Written (call : Call) : Prop :=
  call.w.saved.isSome ∧ (serialize call.input.diff.before).isSome ∧ (serialize call.input.diff.after).isSome ∧
    (jsonb call.input.metadata).isSome
instance (call : Call) : Decidable call.Written := inferInstanceAs (Decidable (_ ∧ _))

def record (serviceName : Option String) (calls : List Call) (table : List ActivityLog) : List ActivityLog :=
  calls.foldl (fun table call => logChange serviceName call.w call.input table) table

section Run
variable {entityType : String} {entityId : EntityId} {call : Call} {calls : List Call} {s t first last : String → Option (Option Kept)}

-- The changes of one entity, among those of all the others: each was made to what the one before it
-- had left, as far as the watched fields go.
def Chained (watched : String → Prop) (entityType : String) (entityId : EntityId) (s : String → Option (Option Kept)) :
    List Call → (String → Option (Option Kept)) → Prop
  | [],t => Agree watched s t
  | call :: rest,t =>
    if call.concerns entityType entityId then
      Agree watched s (view call.input.old_value) ∧ Chained watched entityType entityId (view call.input.new_value) rest t
    else Chained watched entityType entityId s rest t
def entityRow (serviceName : Option String) (entityType : String) (entityId : EntityId) (call : Call) : Option ActivityLog :=
  if call.concerns entityType entityId then call.row serviceName else none

theorem record_rows (calls : List Call) (table : List ActivityLog) :
    record serviceName calls table = table ++ calls.filterMap (·.row serviceName) := by
  induction calls generalizing table with
  | nil => simp [record]
  | cons call rest ih =>
    have here : logChange serviceName call.w call.input table = table ++ (call.row serviceName).toList := by
      unfold logChange Call.row log
      split
      · simp
      · rfl
    rw [record,List.foldl_cons,here]
    refine (ih _).trans ?_
    cases row : call.row serviceName <;> simp [row]
theorem row_parts {row : ActivityLog} (left : call.row serviceName = some row) :
    row.entity_type = call.input.entity_type ∧ row.entity_id = call.input.entity_id.toText ∧ row.created_at = call.w.now ∧
      row.old_value = serialize call.input.diff.before ∧ row.new_value = serialize call.input.diff.after := by
  unfold Call.row logged at left
  split at left
  · cases left
  · simp only [Option.bind_eq_bind,Option.bind_eq_some_iff,Option.pure_def,Option.some.injEq] at left
    obtain ⟨oldValue,before,newValue,after,_,_,_,_,rfl⟩ := left
    simp only [jsonb,ActivityChangeInput.logInput,normaliseJsonb,Option.map_eq_some_iff] at before after
    obtain ⟨_,before,rfl⟩ := before
    obtain ⟨_,after,rfl⟩ := after
    exact ⟨rfl,rfl,rfl,before.symm,after.symm⟩
theorem entity_rows (calls : List Call) :
    (calls.filterMap (·.row serviceName)).filter (fun row => row.entity_type == entityType && row.entity_id == entityId.toText) =
      calls.filterMap (entityRow serviceName entityType entityId) := by
  rw [List.filter_filterMap]
  apply List.filterMap_congr
  intro call _
  unfold entityRow
  cases left : call.row serviceName with
  | none => simp
  | some row =>
    obtain ⟨sameType,sameId,-⟩ := row_parts left
    simp only [Option.filter,sameType,sameId,Call.concerns]
    rfl

theorem written_row (serviceName : Option String) (written : call.Written) (differs : ¬(call.input.diff.before.isEmpty && call.input.diff.after.isEmpty) = true) :
    ∃ row,call.row serviceName = some row := by
  obtain ⟨saved,before,after,metadata⟩ := written
  obtain ⟨_,saved⟩ := Option.isSome_iff_exists.mp saved
  obtain ⟨_,before⟩ := Option.isSome_iff_exists.mp before
  obtain ⟨_,after⟩ := Option.isSome_iff_exists.mp after
  obtain ⟨_,metadata⟩ := Option.isSome_iff_exists.mp metadata
  unfold Call.row logged
  rw [if_neg differs]
  simp [ActivityChangeInput.logInput,jsonb,normaliseJsonb,before,after] at metadata ⊢
  simp [metadata,saved]

-- One call: it leaves a row that describes its change, or it leaves none and no watched field changed.
theorem call_trail (serviceName : Option String) (written : call.Written) (seen : ∀ key,watched key → key ∉ DEFAULT_IGNORED_FIELDS ++ call.input.ignore_fields.getD []) :
    Trail watched (view call.input.old_value) ((call.row serviceName).toList.map rowChange) (view call.input.new_value) := by
  by_cases differs : (call.input.diff.before.isEmpty && call.input.diff.after.isEmpty) = true
  · rw [Call.row,if_pos differs]
    refine .done fun key inside => ?_
    rw [diff_before,Bool.and_eq_true,List.isEmpty_iff,List.map_eq_nil_iff] at differs
    have unlisted : key ∉ changed call.input.old_value call.input.new_value (call.input.ignore_fields.getD []) := by
      rw [differs.1]
      exact List.not_mem_nil
    rw [changed_exact (seen key inside),Bool.not_eq_false] at unlisted
    exact equal_kept unlisted
  · obtain ⟨row,left⟩ := written_row serviceName written differs
    obtain ⟨-,-,-,old,new⟩ := row_parts left
    obtain ⟨-,before,after,-⟩ := written
    obtain ⟨_,before⟩ := Option.isSome_iff_exists.mp before
    obtain ⟨_,after⟩ := Option.isSome_iff_exists.mp after
    rw [left]
    exact .step (row_describes before after seen (old.trans before) (new.trans after)) (.done (.refl _))

theorem chained_trail (serviceName : Option String) (chained : Chained watched entityType entityId s calls t)
    (written : ∀ call ∈ calls,call.concerns entityType entityId = true → call.Written)
    (seen : ∀ call ∈ calls,call.concerns entityType entityId = true →
      ∀ key,watched key → key ∉ DEFAULT_IGNORED_FIELDS ++ call.input.ignore_fields.getD []) :
    Trail watched s ((calls.filterMap (entityRow serviceName entityType entityId)).map rowChange) t := by
  induction calls generalizing s with
  | nil => exact .done chained
  | cons call rest ih =>
    have writtenRest := fun other inside => written other (List.mem_cons_of_mem _ inside)
    have seenRest := fun other inside => seen other (List.mem_cons_of_mem _ inside)
    unfold Chained at chained
    split at chained
    · rename_i concerns
      obtain ⟨same,chained⟩ := chained
      have here := call_trail serviceName (written call List.mem_cons_self concerns) (seen call List.mem_cons_self concerns)
      have trail := trail_append (trail_start same here) (ih chained writtenRest seenRest)
      have row : entityRow serviceName entityType entityId call = call.row serviceName := by rw [entityRow,if_pos concerns]
      cases left : call.row serviceName with
      | none => simpa [List.filterMap_cons,row,left] using trail
      | some _ => simpa [List.filterMap_cons,row,left] using trail
    · rename_i other
      have row : entityRow serviceName entityType entityId call = none := by rw [entityRow,if_neg other]
      rw [List.filterMap_cons,row]
      exact ih chained writtenRest seenRest

theorem chained_cut {older newer : List Call} (chained : Chained watched entityType entityId s (older ++ newer) t) :
    ∃ middle,Chained watched entityType entityId s older middle ∧ Chained watched entityType entityId middle newer t := by
  induction older generalizing s with
  | nil => exact ⟨s,.refl s,chained⟩
  | cons call rest ih =>
    rw [List.cons_append,Chained] at chained
    split at chained
    · rename_i concerns
      obtain ⟨middle,first,second⟩ := ih chained.2
      exact ⟨middle,by rw [Chained,if_pos concerns]; exact ⟨chained.1,first⟩,second⟩
    · rename_i other
      obtain ⟨middle,first,second⟩ := ih chained
      exact ⟨middle,by rw [Chained,if_neg other]; exact first,second⟩

-- Newest first is the rows turned round, when no two of them carry one time.
theorem newest_reverse {rows : List ActivityLog} (ordered : rows.Pairwise fun a b => a.created_at < b.created_at) :
    rows.mergeSort (fun a b => b.created_at ≤ a.created_at) = rows.reverse := by
  have sorted : (rows.mergeSort fun a b => b.created_at ≤ a.created_at).Pairwise fun a b => decide (b.created_at ≤ a.created_at) = true :=
    List.pairwise_mergeSort (by simp only [decide_eq_true_eq]; omega) (by simp only [Bool.or_eq_true,decide_eq_true_eq]; omega) rows
  have turned : rows.reverse.Pairwise fun a b => decide (b.created_at ≤ a.created_at) = true := by
    rw [List.pairwise_reverse]
    exact ordered.imp fun before => decide_eq_true (Nat.le_of_lt before)
  refine List.Perm.eq_of_pairwise ?_ sorted turned ((List.mergeSort_perm _ _).trans (List.reverse_perm rows).symm)
  intro a b inside other below above
  simp only [decide_eq_true_eq] at below above
  by_contra apart
  rw [List.mem_mergeSort] at inside
  rw [List.mem_reverse] at other
  have distinct : (rows.map (·.created_at)).Nodup := by
    rw [List.nodup_iff_pairwise_ne,List.pairwise_map]
    exact ordered.imp Nat.ne_of_lt
  exact apart (List.inj_on_of_nodup_map distinct inside other (Nat.le_antisymm above below))

theorem found_rows (ordered : (calls.filter (·.concerns entityType entityId)).Pairwise fun a b => a.w.now < b.w.now) (limit : Int) :
    findByEntity entityType entityId limit (record serviceName calls []) =
      ((calls.filterMap (entityRow serviceName entityType entityId)).drop
        ((calls.filterMap (entityRow serviceName entityType entityId)).length - (min (max limit 1) 500).toNat)).reverse := by
  have rising : (calls.filterMap (entityRow serviceName entityType entityId)).Pairwise fun a b => a.created_at < b.created_at := by
    rw [List.pairwise_filterMap]
    rw [List.pairwise_filter] at ordered
    refine ordered.imp fun before a here b there => ?_
    unfold entityRow at here there
    split at here
    · rename_i concerns
      split at there
      · rename_i other
        rw [(row_parts here).2.2.1,(row_parts there).2.2.1]
        exact before concerns other
      · cases there
    · cases here
  rw [findByEntity,record_rows,List.nil_append,entity_rows,newest_reverse rising,List.take_reverse]

-- The newest rows of an entity, undone over what it is now, give what it was when the oldest of them
-- was written; replayed over that, they give what it is now. Fewer rows than were asked for are its
-- whole history.
theorem findByEntity_reconstructs (serviceName : Option String) (chained : Chained watched entityType entityId first calls last)
    (written : ∀ call ∈ calls,call.concerns entityType entityId = true → call.Written)
    (seen : ∀ call ∈ calls,call.concerns entityType entityId = true →
      ∀ key,watched key → key ∉ DEFAULT_IGNORED_FIELDS ++ call.input.ignore_fields.getD [])
    (ordered : (calls.filter (·.concerns entityType entityId)).Pairwise fun a b => a.w.now < b.w.now) (limit : Int) :
    ∃ older newer point,calls = older ++ newer ∧ Chained watched entityType entityId first older point ∧
      Chained watched entityType entityId point newer last ∧
      findByEntity entityType entityId limit (record serviceName calls []) =
        (newer.filterMap (entityRow serviceName entityType entityId)).reverse ∧
      Agree watched (undo ((findByEntity entityType entityId limit (record serviceName calls [])).map rowChange) last) point ∧
      Agree watched (replay ((findByEntity entityType entityId limit (record serviceName calls [])).reverse.map rowChange) point) last ∧
      ((findByEntity entityType entityId limit (record serviceName calls [])).length < (min (max limit 1) 500).toNat →
        Agree watched first point) := by
  rw [found_rows ordered]
  generalize skipped : (calls.filterMap (entityRow serviceName entityType entityId)).length - (min (max limit 1) 500).toNat = count
  obtain ⟨older,newer,rfl,before,after⟩ := List.filterMap_eq_append_iff.mp
    (List.take_append_drop count (calls.filterMap (entityRow serviceName entityType entityId))).symm
  obtain ⟨point,past,recent⟩ := chained_cut chained
  have trail := chained_trail serviceName recent
    (fun call inside => written call (List.mem_append_right older inside))
    (fun call inside => seen call (List.mem_append_right older inside))
  refine ⟨older,newer,point,rfl,past,recent,?_,?_,?_,?_⟩
  · rw [←after]
  · rw [←after,List.map_reverse]
    exact undo_trail trail (.refl last)
  · rw [←after,List.reverse_reverse]
    exact replay_trail trail (.refl point)
  · intro short
    have none : older.filterMap (entityRow serviceName entityType entityId) = [] := by
      rw [before,List.take_eq_nil_iff]
      left
      rw [List.length_reverse,List.length_drop] at short
      omega
    have whole := chained_trail serviceName past
      (fun call inside => written call (List.mem_append_left newer inside))
      (fun call inside => seen call (List.mem_append_left newer inside))
    rw [none] at whole
    cases whole with
    | done agree => exact agree

-- A product is renamed between two changes of another one, and saved once more as it is.
def renamed : List Call :=
  let change (id : Int) (before after : String) (time : Nat) : Call := ⟨{
    entity_type:="Product",entity_id:=.number id,action:=none
    old_value:=some [("name",.string before),("updated_at",.date 0 (some time))]
    new_value:=some [("name",.string after),("updated_at",.date 1 (some (time + 1)))]
    ignore_fields:=none,user_id:=none,user_name:=none,user_role:=none,trace_id:=none,metadata:=.absent},⟨none,time,some time⟩⟩
  [change 8 "Tea" "Coffee" 1,change 7 "Soap" "Shampoo" 2,change 8 "Coffee" "Tea" 3,change 7 "Shampoo" "Shampoo" 4]
def named (name : String) : String → Option (Option Kept) := view (some [("name",.string name)])

theorem findByEntity_reconstructs_renamed : ∃ older newer point,renamed = older ++ newer ∧
    Chained (· = "name") "Product" (.number 7) (named "Soap") older point ∧
    Chained (· = "name") "Product" (.number 7) point newer (named "Shampoo") ∧
    findByEntity "Product" (.number 7) 1 (record none renamed []) =
      (newer.filterMap (entityRow none "Product" (.number 7))).reverse ∧
    Agree (· = "name") (undo ((findByEntity "Product" (.number 7) 1 (record none renamed [])).map rowChange) (named "Shampoo")) point ∧
    Agree (· = "name") (replay ((findByEntity "Product" (.number 7) 1 (record none renamed [])).reverse.map rowChange) point) (named "Shampoo") ∧
    ((findByEntity "Product" (.number 7) 1 (record none renamed [])).length < 1 → Agree (· = "name") (named "Soap") point) := by
  refine findByEntity_reconstructs none ?_ ?_ ?_ ?_ 1
  · refine ⟨?_,?_,?_⟩ <;> rintro _ rfl <;> rfl
  · decide
  · rintro call inside - _ rfl
    revert call
    decide
  · decide

end Run

end Elchi.Activity

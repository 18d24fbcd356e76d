import Mathlib.Algebra.BigOperators.Group.Finset.Basic
import Elchi.CashboxLedger
namespace Elchi.Finance
open RowLock

-- A finance schema whose cashboxes agree with their histories, as every served one does.
structure Books where
  table : Table Row
  journal : Journal CashboxHistory
  nextId : Nat
  keyed : table.Keyed
  below : ∀ key ∈ table.map (·.1),key < nextId
  journalBelow : ∀ entry ∈ journal,entry.1 < nextId
  ledger : ∀ key,Fits RowLedger key (table.row key) (slice journal key)

def reached {calls : List Call} (permitted : ∀ call ∈ calls,call.Permitted) (turns : List Turn) : Books :=
  let sound := serve_sound permitted turns
  ⟨(serve calls turns).table,(serve calls turns).journal,(serve calls turns).nextId,
    sound.keyed,sound.below,sound.journalBelow,sound.fits⟩

-- One delivery of an update_balance message and the time it is handled at.
abbrev Delivery := Nat × UpdateCashboxBalanceDto

def consume (books : Books) (deliveries : List Delivery) (turns : List Turn) :
    Machine Row CashboxHistory Movement (Except RpcError Answer) :=
  (Machine.start books.table books.journal books.nextId (deliveries.map fun d => updateBalance d.1 d.2)).run turns

def Movement.delivery : Movement → Option UpdateCashboxBalanceDto
  | .balance dto => some dto
  | .balanceReplay dto => some dto
  | _ => none
-- The messages whose consumer committed on one cashbox, applied or recognised as known.
def deliveredTo (log : List (Commit Row CashboxHistory Movement)) (id : Nat) : List UpdateCashboxBalanceDto :=
  log.filterMap fun c => if c.held.any fun h => h.key == id then c.note.delivery else none

-- The first delivery of every key not seen before; a message without a key is never a repetition.
def firsts (seen : List DedupKey) : List UpdateCashboxBalanceDto → List UpdateCashboxBalanceDto
  | [] => []
  | dto :: rest =>
    if dto.keyed ∧ dto.key ∈ seen then firsts seen rest else dto :: firsts (dto.key :: seen) rest

theorem firsts_snoc (seen : List DedupKey) (delivered : List UpdateCashboxBalanceDto) (dto : UpdateCashboxBalanceDto) :
    firsts seen (delivered ++ [dto]) = firsts seen delivered ++
      if dto.keyed ∧ (dto.key ∈ seen ∨ dto.key ∈ (firsts seen delivered).map fun d => d.key) then [] else [dto] := by
  induction delivered generalizing seen with
  | nil => simp [firsts]
  | cons head rest ih =>
    simp only [List.cons_append,firsts]
    by_cases known : head.keyed ∧ head.key ∈ seen
    · simp only [known,and_self,if_true]
      exact ih seen
    · simp only [known,if_false,List.cons_append,List.map_cons,List.mem_cons]
      rw [ih (head.key :: seen)]
      have same : (dto.key ∈ head.key :: seen ∨ dto.key ∈ (firsts (head.key :: seen) rest).map fun d => d.key) ↔
          (dto.key ∈ seen ∨ dto.key = head.key ∨ dto.key ∈ (firsts (head.key :: seen) rest).map fun d => d.key) := by
        rw [List.mem_cons]
        tauto
      simp only [same]

-- A key tells whether it is one: unkeyed messages never share a key with keyed ones.
theorem keyed_of_key {a b : UpdateCashboxBalanceDto} (same : a.key = b.key) : a.keyed = b.keyed := by
  have source : a.sourceId = b.sourceId := congrArg DedupKey.sourceId same
  have epoch : a.token = b.token := congrArg DedupKey.dedupEpoch same
  simp [UpdateCashboxBalanceDto.keyed,source,epoch]

def keysOf (delivered : List UpdateCashboxBalanceDto) : Finset DedupKey :=
  ((delivered.filter fun dto => dto.keyed).map fun dto => dto.key).toFinset
def unkeyedSum (delivered : List UpdateCashboxBalanceDto) : Int :=
  ((delivered.filter fun dto => !dto.keyed).map fun dto => dto.leg.signed).sum

theorem keysOf_cons (dto : UpdateCashboxBalanceDto) (rest : List UpdateCashboxBalanceDto) :
    keysOf (dto :: rest) = if dto.keyed then insert dto.key (keysOf rest) else keysOf rest := by
  unfold keysOf
  by_cases keyed : dto.keyed
  · simp [keyed]
  · simp [keyed]
theorem unkeyedSum_cons (dto : UpdateCashboxBalanceDto) (rest : List UpdateCashboxBalanceDto) :
    unkeyedSum (dto :: rest) = if dto.keyed then unkeyedSum rest else dto.leg.signed + unkeyedSum rest := by
  unfold unkeyedSum
  by_cases keyed : dto.keyed
  · simp [keyed]
  · simp [keyed]
theorem keysOf_mem : key ∈ keysOf delivered ↔ ∃ dto ∈ delivered,dto.keyed = true ∧ dto.key = key := by
  simp [keysOf,and_assoc]

theorem firsts_sum (amount : DedupKey → Int) (seen : List DedupKey) (delivered : List UpdateCashboxBalanceDto)
    (copies : ∀ dto ∈ delivered,dto.keyed = true → dto.leg.signed = amount dto.key) :
    ((firsts seen delivered).map fun dto => dto.leg.signed).sum =
      ∑ key ∈ keysOf delivered \ seen.toFinset,amount key + unkeyedSum delivered := by
  induction delivered generalizing seen with
  | nil => simp [firsts,keysOf,unkeyedSum]
  | cons dto rest ih =>
    have copiesRest : ∀ d ∈ rest,d.keyed = true → d.leg.signed = amount d.key := fun d member => copies d (by simp [member])
    rw [keysOf_cons,unkeyedSum_cons]
    unfold firsts
    by_cases keyed : dto.keyed = true
    · simp only [keyed,true_and,if_true]
      by_cases known : dto.key ∈ seen
      · have same : insert dto.key (keysOf rest) \ seen.toFinset = keysOf rest \ seen.toFinset :=
          Finset.insert_sdiff_of_mem _ (by simpa using known)
        rw [if_pos known,same]
        exact ih seen copiesRest
      · have split : insert dto.key (keysOf rest) \ seen.toFinset =
            insert dto.key (keysOf rest \ (dto.key :: seen).toFinset) := by
          ext key
          simp only [Finset.mem_sdiff,Finset.mem_insert,List.mem_toFinset,List.mem_cons]
          by_cases here : key = dto.key
          · simp [here,known]
          · simp [here]
        rw [if_neg known,List.map_cons,List.sum_cons,ih _ copiesRest,split,
          Finset.sum_insert (by simp),copies dto (by simp) keyed]
        omega
    · have other : keysOf rest \ (dto.key :: seen).toFinset = keysOf rest \ seen.toFinset := by
        ext key
        simp only [Finset.mem_sdiff,List.mem_toFinset,List.mem_cons]
        constructor
        · rintro ⟨member,outside⟩
          exact ⟨member,fun old => outside (.inr old)⟩
        · rintro ⟨member,outside⟩
          refine ⟨member,?_⟩
          rintro (same | old)
          · obtain ⟨d,-,keyedD,keyD⟩ := keysOf_mem.mp member
            exact keyed ((keyed_of_key (keyD.trans same)).symm.trans keyedD)
          · exact outside old
      simp only [keyed]
      rw [if_neg (by simp),List.map_cons,List.sum_cons,ih _ copiesRest,other]
      simp only [Bool.false_eq_true,if_false]
      omega

theorem consume_sound (books : Books) (deliveries : List Delivery) (turns : List Turn) :
    (consume books deliveries turns).Sound RowLedger (fun _ => Posts fun dto => ∃ d ∈ deliveries,d.2 = dto) fun who made answer =>
      ∀ d,deliveries[who]? = some d → Replies d.2 made answer := by
  refine run_sound (start_sound books.keyed books.below books.journalBelow books.ledger ?_) turns
  intro who prog found
  rw [List.getElem?_map,Option.map_eq_some_iff] at found
  obtain ⟨d,here,rfl⟩ := found
  refine safe_mono (fun _ _ _ _ _ granted => granted) ?_ (updateBalance_safe d.1 d.2 ⟨d,List.mem_of_getElem? here,rfl⟩)
  intro made answer replies d' same
  cases here.symm.trans same
  exact replies

-- The account of one cashbox along a run of consumers: whose it is, and what was booked so far.
def Settled (sent : UpdateCashboxBalanceDto → Prop) (books : Books) (id : Nat) (opening : Cashbox) (m : Machine Row CashboxHistory Movement (Except RpcError Answer)) : Prop :=
  (∃ current,m.table.row id = some (.cashbox current) ∧ current.cashboxType = opening.cashboxType ∧
    current.userId = opening.userId ∧ current.isDeleted = opening.isDeleted) ∧
  (∀ dto ∈ deliveredTo m.log id,sent dto ∧ dto.Addresses id opening) ∧
  (slice m.journal id).map (·.toLeg) = (slice books.journal id).map (·.toLeg) ++
    (firsts ((slice books.journal id).map fun row => row.key) (deliveredTo m.log id)).map fun dto => dto.leg

theorem addresses_same {id : Nat} {dto : UpdateCashboxBalanceDto} {current opening : Cashbox} (type : current.cashboxType = opening.cashboxType)
    (user : current.userId = opening.userId) (deleted : current.isDeleted = opening.isDeleted) (addresses : dto.Addresses id current) :
    dto.Addresses id opening := by
  obtain ⟨sel,chosen,selected⟩ := addresses
  refine ⟨sel,chosen,?_⟩
  unfold UpdateCashboxBalanceDto.selector at chosen
  split at chosen
  · cases chosen
    simpa [byId,deleted] using selected
  · split at chosen
    · cases chosen
      simpa [byUserType,type,user,deleted] using selected
    · cases chosen

-- `existing` finds nothing exactly when the message may not be a repetition of a booked row.
theorem existing_exact (dto : UpdateCashboxBalanceDto) (rows : List CashboxHistory) :
    dto.existing rows = none ↔ ¬(dto.keyed ∧ dto.key ∈ rows.map fun row => row.key) := by
  unfold UpdateCashboxBalanceDto.existing
  by_cases keyed : dto.keyed
  · simp only [keyed,if_true,List.find?_eq_none,List.mem_map,true_and,beq_iff_eq,not_exists,not_and]
  · simp [keyed]

section
variable {id key : Nat} {sent : UpdateCashboxBalanceDto → Prop} {books : Books} {opening cashbox : Cashbox} {rows : List CashboxHistory}
  {m : Machine Row CashboxHistory Movement (Except RpcError Answer)}

theorem settled_keys (settled : Settled sent books id opening m) : ((slice m.journal id).map fun row => row.key) =
    ((slice books.journal id).map fun row => row.key) ++
      (firsts ((slice books.journal id).map fun row => row.key) (deliveredTo m.log id)).map fun dto => dto.key := by
  have mapped := congrArg (List.map Leg.key) settled.2.2
  simpa [List.map_append,List.map_map,Function.comp_def,UpdateCashboxBalanceDto.key] using mapped

theorem deliveredTo_snoc (m : Machine Row CashboxHistory Movement (Except RpcError Answer)) (delivery : note.delivery = some dto) :
    deliveredTo (m.log ++ [⟨who,note,[⟨key,row,rows⟩],m.table,writes,entries⟩]) id =
      deliveredTo m.log id ++ if key = id then [dto] else [] := by
  by_cases same : key = id
  · simp [deliveredTo,same,delivery]
  · simp [deliveredTo,same]

theorem settled_elsewhere (settled : Settled sent books id opening m) (other : key ≠ id)
    (writesThere : ∀ write ∈ writes,write.key = key) (entriesThere : ∀ entry ∈ entries,entry.1 = key) :
    Settled sent books id opening {m.resume who next [] with
      table:=applyWrites m.table writes,journal:=m.journal ++ entries,
      log:=m.log ++ [⟨who,note,[⟨key,row,rows⟩],m.table,writes,entries⟩]} := by
  have untouched : written writes id (m.table.row id) = m.table.row id :=
    written_untouched (fun write member same => other ((writesThere write member).symm.trans same)) _
  have nothing : slice entries id = [] :=
    slice_absent fun entry member same => other ((entriesThere entry member).symm.trans same)
  have log : deliveredTo (m.log ++ [⟨who,note,[⟨key,row,rows⟩],m.table,writes,entries⟩]) id = deliveredTo m.log id := by
    simp [deliveredTo,other]
  unfold Settled at settled ⊢
  simpa only [applyWrites_row,untouched,slice_append,nothing,List.append_nil,log] using settled

theorem settled_booked (settled : Settled sent books id opening m) (stored : m.table.row id = some (.cashbox cashbox))
    (history : slice m.journal id = rows) (isSent : sent dto) (addresses : dto.Addresses id cashbox) (unknown : dto.existing rows = none)
    (booked : book now override dto.leg cashbox = .ok (saved,row)) :
    Settled sent books id opening {m.resume who next [] with
      table:=applyWrites m.table [saveCashbox id saved],journal:=m.journal ++ [(id,row)],
      log:=m.log ++ [⟨who,.balance dto,[⟨id,some (.cashbox cashbox),rows⟩],m.table,[saveCashbox id saved],[(id,row)]⟩]} := by
  have keys := settled_keys settled
  obtain ⟨⟨current,same,type,user,deleted⟩,addressed,legs⟩ := settled
  cases same.symm.trans stored
  obtain ⟨updated,legSame,-⟩ := book_parts booked
  obtain ⟨savedType,savedUser,savedDeleted,-⟩ := updateBalancesByMethod_parts updated
  have notKnown := (existing_exact dto rows).mp unknown
  rw [←history,keys,List.mem_append] at notKnown
  unfold Settled
  dsimp only
  rw [deliveredTo_snoc m (show Movement.delivery (.balance dto) = some dto from rfl),if_pos rfl]
  refine ⟨⟨saved,?_,savedType.trans type,savedUser.trans user,savedDeleted.trans deleted⟩,?_,?_⟩
  · rw [applyWrites_row,stored]
    simp [written_cons]
  · intro d member
    rcases List.mem_append.mp member with old | last
    · exact addressed d old
    · cases List.mem_singleton.mp last
      exact ⟨isSent,addresses_same type user deleted addresses⟩
  · rw [firsts_snoc,if_neg notKnown,slice_append,List.map_append,legs]
    simp [slice_cons,legSame]

theorem settled_replayed (settled : Settled sent books id opening m) (stored : m.table.row id = some (.cashbox cashbox))
    (history : slice m.journal id = rows) (isSent : sent dto) (addresses : dto.Addresses id cashbox) (seen : (dto.existing rows).isSome) :
    Settled sent books id opening {m.resume who next [] with
      table:=applyWrites m.table [],journal:=m.journal ++ [],
      log:=m.log ++ [⟨who,.balanceReplay dto,[⟨id,some (.cashbox cashbox),rows⟩],m.table,[],[]⟩]} := by
  have keys := settled_keys settled
  obtain ⟨⟨current,same,type,user,deleted⟩,addressed,legs⟩ := settled
  cases same.symm.trans stored
  have isKnown : dto.keyed ∧ dto.key ∈ rows.map fun row => row.key := by
    by_contra absent
    rw [(existing_exact dto rows).mpr absent] at seen
    cases seen
  rw [←history,keys,List.mem_append] at isKnown
  unfold Settled
  dsimp only
  rw [deliveredTo_snoc m (show Movement.delivery (.balanceReplay dto) = some dto from rfl),if_pos rfl]
  refine ⟨⟨cashbox,stored,type,user,deleted⟩,?_,?_⟩
  · intro d member
    rcases List.mem_append.mp member with old | last
    · exact addressed d old
    · cases List.mem_singleton.mp last
      exact ⟨isSent,addresses_same type user deleted addresses⟩
  · rw [firsts_snoc,if_pos isKnown,List.append_nil,List.append_nil]
    exact legs

end

theorem advance_settled {id : Nat} {m : Machine Row CashboxHistory Movement (Except RpcError Answer)}
    (sound : m.Sound RowLedger (fun _ => Posts sent) A) (settled : Settled sent books id opening m) (turn : Turn) :
    Settled sent books id opening (m.advance turn) := by
  rcases advance_parts m turn with ⟨table,journal,log⟩ | ⟨who,note,writes,entries,next,held,here,-,result⟩
  · unfold Settled at settled ⊢
    rwa [table,journal,log]
  obtain ⟨-,posts⟩ : Posts sent held (m.notes who) note writes entries := (sound.safe who _ here).2.2.2.1
  have known := sound.held who _ here
  rw [result]
  cases note with
  | balance dto =>
    obtain ⟨isSent,key,cashbox,rows,now,saved,row,rfl,addresses,unknown,bookedRow,rfl,rfl⟩ := posts
    obtain ⟨storedKey,rowsKey,-⟩ := known _ List.mem_cons_self
    by_cases same : key = id
    · subst same
      exact settled_booked settled storedKey rowsKey isSent addresses unknown bookedRow
    · exact settled_elsewhere settled same (by simp [saveCashbox,Write.key]) (by simp)
  | balanceReplay dto =>
    obtain ⟨isSent,key,cashbox,rows,rfl,addresses,seen,rfl,rfl⟩ := posts
    obtain ⟨storedKey,rowsKey,-⟩ := known _ List.mem_cons_self
    by_cases same : key = id
    · subst same
      exact settled_replayed settled storedKey rowsKey isSent addresses seen
    · exact settled_elsewhere settled same (by simp) (by simp)
  | opened => cases posts
  | payment advance => cases posts
  | paymentReplay => cases posts
  | salary => cases posts

theorem run_settled {id : Nat} {m : Machine Row CashboxHistory Movement (Except RpcError Answer)}
    (sound : m.Sound RowLedger (fun _ => Posts sent) A) (settled : Settled sent books id opening m) (turns : List Turn) :
    Settled sent books id opening (m.run turns) := by
  induction turns generalizing m with
  | nil => exact settled
  | cons turn rest ih => exact ih (advance_sound sound turn) (advance_settled sound settled turn)

theorem consume_settled {id : Nat} (books : Books) (deliveries : List Delivery) (turns : List Turn)
    (stored : books.table.row id = some (.cashbox opening)) :
    Settled (fun dto => ∃ d ∈ deliveries,d.2 = dto) books id opening (consume books deliveries turns) := by
  refine run_settled (consume_sound books deliveries []) ?_ turns
  exact ⟨⟨opening,stored,rfl,rfl,rfl⟩,by simp [consume,Machine.start,deliveredTo],by simp [consume,Machine.start,deliveredTo,firsts]⟩

-- Deliveries that address one cashbox under one key are copies of one leg.
def Copies (deliveries : List Delivery) (id : Nat) (cashbox : Cashbox) (amount : DedupKey → Int) : Prop :=
  ∀ d ∈ deliveries,d.2.Addresses id cashbox → d.2.keyed = true → d.2.leg.signed = amount d.2.key

theorem consume_balance {id : Nat} (books : Books) (deliveries : List Delivery) (turns : List Turn)
    (stored : books.table.row id = some (.cashbox opening)) (copies : Copies deliveries id opening amount) :
    ∃ closing,(consume books deliveries turns).table.row id = some (.cashbox closing) ∧
      closing.balance = opening.balance +
        (∑ key ∈ keysOf (deliveredTo (consume books deliveries turns).log id) \
          ((slice books.journal id).map fun row => row.key).toFinset,amount key) +
        unkeyedSum (deliveredTo (consume books deliveries turns).log id) := by
  obtain ⟨⟨closing,final,-⟩,addressed,legs⟩ := consume_settled books deliveries turns stored
  have before := books.ledger id
  have after := (consume_sound books deliveries turns).fits id
  rw [stored] at before
  rw [final] at after
  obtain ⟨-,opens⟩ : Ledger opening _ := before
  obtain ⟨-,closes⟩ : Ledger closing _ := after
  have signed := congrArg (fun entries => (entries.map Leg.signed).sum) legs
  simp only [List.map_append,List.map_map,List.sum_append,Function.comp_def] at signed
  have distinct := firsts_sum amount ((slice books.journal id).map fun row => row.key)
    (deliveredTo (consume books deliveries turns).log id) (by
      intro dto member keyed
      obtain ⟨⟨d,inDeliveries,rfl⟩,addresses⟩ := addressed dto member
      exact copies d inDeliveries addresses keyed)
  refine ⟨closing,final,?_⟩
  rw [closes.sum,opens.sum,signed,distinct]
  omega

-- Whose a row is; no consumer changes that, and none adds or removes a row.
def Row.owner : Row → Option (CashboxType × Nat × Bool)
  | .cashbox box => some (box.cashboxType,box.userId,box.isDeleted)
  | .userSalary _ => none
def Owned (books : Books) (m : Machine Row CashboxHistory Movement (Except RpcError Answer)) : Prop :=
  ∀ key,(m.table.row key).map Row.owner = (books.table.row key).map Row.owner

theorem owned_cashbox {m : Machine Row CashboxHistory Movement (Except RpcError Answer)} {table : Table Row} {opening : Cashbox}
    (owned : (m.table.row key).map Row.owner = (table.row key).map Row.owner) (stored : table.row key = some (.cashbox opening)) :
    ∃ current,m.table.row key = some (.cashbox current) ∧ current.cashboxType = opening.cashboxType ∧
      current.userId = opening.userId ∧ current.isDeleted = opening.isDeleted := by
  rw [stored,Option.map_some,Option.map_eq_some_iff] at owned
  obtain ⟨row,here,same⟩ := owned
  cases row with
  | cashbox current =>
    simp only [Row.owner,Option.some.injEq,Prod.mk.injEq] at same
    exact ⟨current,here,same⟩
  | userSalary salary => cases same

theorem advance_owned {m : Machine Row CashboxHistory Movement (Except RpcError Answer)} (sound : m.Sound RowLedger (fun _ => Posts sent) A)
    (owned : Owned books m) (turn : Turn) : Owned books (m.advance turn) := by
  intro key
  rcases advance_parts m turn with ⟨table,-,-⟩ | ⟨who,note,writes,entries,next,held,here,-,result⟩
  · rw [table]
    exact owned key
  obtain ⟨-,posts⟩ : Posts sent held (m.notes who) note writes entries := (sound.safe who _ here).2.2.2.1
  have known := sound.held who _ here
  rw [result]
  change ((applyWrites m.table writes).row key).map Row.owner = _
  rw [applyWrites_row]
  cases note with
  | balance dto =>
    obtain ⟨-,id,cashbox,rows,now,saved,row,rfl,-,-,booked,rfl,-⟩ := posts
    obtain ⟨stored,-,-⟩ := known _ List.mem_cons_self
    obtain ⟨type,user,deleted,-⟩ := updateBalancesByMethod_parts (book_parts booked).1
    by_cases same : id = key
    · subst same
      rw [←owned id,stored]
      simp [written_cons,Row.owner,type,user,deleted]
    · rw [written_cons,saveCashbox_key,if_neg same]
      exact owned key
  | balanceReplay dto =>
    obtain ⟨-,id,cashbox,rows,-,-,-,rfl,-⟩ := posts
    exact owned key
  | _ => cases posts

theorem run_owned {m : Machine Row CashboxHistory Movement (Except RpcError Answer)} (sound : m.Sound RowLedger (fun _ => Posts sent) A)
    (owned : Owned books m) (turns : List Turn) : Owned books (m.run turns) := by
  induction turns generalizing m with
  | nil => exact owned
  | cons turn rest ih => exact ih (advance_sound sound turn) (advance_owned sound owned turn)

theorem consume_owned (books : Books) (deliveries : List Delivery) (turns : List Turn) : Owned books (consume books deliveries turns) :=
  run_owned (consume_sound books deliveries []) (fun _ => rfl) turns

-- Where the consumer of one message stands: before its lock, before its commit with the
-- cashbox locked, done, or killed.
inductive Consuming (books : Books) (d : Delivery) (log : List (Commit Row CashboxHistory Movement)) :
    Session Row CashboxHistory Movement (Except RpcError Answer) → Prop where
  | waiting : Consuming books d log ⟨updateBalance d.1 d.2,[]⟩
  | locked {id : Nat} (stored : books.table.row id = some (.cashbox cashbox)) (delivery : note.delivery = some d.2) :
      Consuming books d log ⟨.commit note writes entries (.done (.ok reply)),[⟨id,row,rows⟩]⟩
  | finished {id : Nat} (stored : books.table.row id = some (.cashbox cashbox)) (delivered : d.2 ∈ deliveredTo log id) :
      Consuming books d log ⟨.done (.ok reply),[]⟩
  | killed : Consuming books d log ⟨.halt,[]⟩

theorem Consuming.grows (consuming : Consuming books d log s) (more : List (Commit Row CashboxHistory Movement)) :
    Consuming books d (log ++ more) s := by
  cases consuming with
  | waiting => exact .waiting
  | locked stored delivery => exact .locked stored delivery
  | finished stored delivered =>
    apply Consuming.finished stored
    rw [deliveredTo,List.filterMap_append]
    exact List.mem_append_left _ delivered
  | killed => exact .killed

theorem addresses_type {dto : UpdateCashboxBalanceDto} {sel : Nat → Cashbox → Bool} {cashbox opening : Cashbox} {id : Nat}
    (chosen : dto.selector = .ok sel) (selected : sel key cashbox = true) (selectedOther : sel id opening = true) (sameRow : key = id → cashbox.cashboxType = opening.cashboxType) :
    cashbox.cashboxType = opening.cashboxType := by
  unfold UpdateCashboxBalanceDto.selector at chosen
  split at chosen
  · cases chosen
    simp only [byId,Bool.and_eq_true,beq_iff_eq] at selected selectedOther
    exact sameRow (selected.1.trans selectedOther.1.symm)
  · split at chosen
    · cases chosen
      exact (byUserType_owner selected).2.trans (byUserType_owner selectedOther).2.symm
    · cases chosen

theorem log_grows (m : Machine Row CashboxHistory Movement (Except RpcError Answer)) (turn : Turn) :
    ∃ more,(m.advance turn).log = m.log ++ more := by
  rcases advance_parts m turn with ⟨-,-,log⟩ | ⟨who,note,writes,entries,next,held,-,-,result⟩
  · exact ⟨[],by rw [log,List.append_nil]⟩
  · exact ⟨_,by rw [result]⟩

-- From its lock on a cashbox that may go below zero a consumer goes on to commit.
theorem updateBalance_locks (now : Nat) (positive : 0 < dto.amount) (chosen : dto.selector = .ok sel) :
    ∃ next,updateBalance now dto = .lock (cashboxRow sel) next ∧ ∀ key cashbox rows,cashbox.cashboxType ≠ .main →
      ∃ note writes entries reply,next (some (key,.cashbox cashbox,rows)) = .commit note writes entries (.done (.ok reply)) ∧
        note.delivery = some dto := by
  unfold updateBalance
  rw [if_neg (by omega),chosen]
  refine ⟨_,rfl,?_⟩
  intro key cashbox rows free
  dsimp only
  split
  · exact ⟨_,_,_,_,rfl,rfl⟩
  · obtain ⟨saved,row,booked⟩ := book_allowed now dto.leg free
    rw [booked]
    exact ⟨_,_,_,_,rfl,rfl⟩

theorem Consuming.answered {id : Nat} {s : Session Row CashboxHistory Movement (Except RpcError Answer)} (consuming : Consuming books d log s)
    (positive : 0 < d.2.amount) (addresses : d.2.Addresses id opening) (done : s.prog = .done reply) :
    ∃ key cashbox,books.table.row key = some (.cashbox cashbox) ∧ d.2 ∈ deliveredTo log key := by
  cases consuming with
  | waiting =>
    obtain ⟨sel,chosen,-⟩ := addresses
    obtain ⟨next,program,-⟩ := updateBalance_locks d.1 positive chosen
    cases program.symm.trans done
  | locked stored delivery => cases done
  | finished stored delivered => exact ⟨_,_,stored,delivered⟩
  | killed => cases done

section
variable {id who : Nat} {m : Machine Row CashboxHistory Movement (Except RpcError Answer)} {d : Delivery} {books : Books} {opening : Cashbox}

-- A cashbox the message addresses is always there, so the lock is taken or waited for.
theorem lock_consuming (keyed : m.table.Keyed) (owned : Owned books m) (stored : books.table.row id = some (.cashbox opening))
    (free : opening.cashboxType ≠ .main) (positive : 0 < d.2.amount) (addresses : d.2.Addresses id opening)
    (here : m.sessions[who]? = some ⟨updateBalance d.1 d.2,[]⟩)
    (found : (m.stepProg who pick [] (updateBalance d.1 d.2)).sessions[who]? = some s) : Consuming books d m.log s := by
  obtain ⟨sel,chosen,selected⟩ := addresses
  obtain ⟨current,now,type,user,deleted⟩ := owned_cashbox (owned id) stored
  obtain ⟨sel',chosen',still⟩ := addresses_same type.symm user.symm deleted.symm ⟨sel,chosen,selected⟩
  cases chosen.symm.trans chosen'
  have present : (id,.cashbox current) ∈ m.table.select (cashboxRow sel) := List.mem_filter.mpr ⟨(row_exact keyed).mpr now,still⟩
  obtain ⟨next,program,commits⟩ := updateBalance_locks d.1 positive chosen
  rw [program] at here found
  simp only [Machine.stepProg,Machine.lockRow] at found
  split at found
  · rename_i empty
    rw [empty] at present
    cases present
  · split at found
    · cases here.symm.trans found
      rw [←program]
      exact .waiting
    · rename_i key row picked
      split at found
      · obtain ⟨rowNow,selectedRow⟩ := select_row keyed (List.mem_of_getElem? picked)
        rcases resume_at m found with ⟨-,rfl⟩ | ⟨impossible,-⟩
        · cases row with
          | userSalary salary => cases selectedRow
          | cashbox cashbox =>
            have sameRow : key = id → cashbox.cashboxType = current.cashboxType := by
              rintro rfl
              cases rowNow.symm.trans now
              rfl
            have sameType := addresses_type chosen selectedRow still sameRow
            obtain ⟨note,writes,entries,reply,goes,delivery⟩ :=
              commits key cashbox (slice m.journal key) (by rwa [sameType,type])
            obtain ⟨first,bookedRow⟩ : ∃ first,books.table.row key = some (.cashbox first) := by
              have same := owned key
              rw [rowNow] at same
              cases before : books.table.row key with
              | none => simp [before] at same
              | some row =>
                cases row with
                | cashbox first => exact ⟨first,rfl⟩
                | userSalary salary => simp [before,Row.owner] at same
            rw [goes]
            exact .locked bookedRow delivery
        · exact absurd rfl impossible
      · cases here.symm.trans found
        rw [←program]
        exact .waiting

theorem advance_consuming (sound : m.Sound RowLedger (fun _ => Posts sent) A) (owned : Owned books m)
    (stored : books.table.row id = some (.cashbox opening)) (free : opening.cashboxType ≠ .main) (positive : 0 < d.2.amount)
    (addresses : d.2.Addresses id opening) (consuming : ∀ s,m.sessions[who]? = some s → Consuming books d m.log s) (turn : Turn) :
    ∀ s,(m.advance turn).sessions[who]? = some s → Consuming books d (m.advance turn).log s := by
  intro s found
  obtain ⟨more,grown⟩ := log_grows m turn
  rcases advance_session m turn found with same | rfl | ⟨old,pick,here,moved⟩
  · rw [grown]
    exact (consuming s same).grows more
  · exact .killed
  · rw [moved] at found
    have before := consuming old here
    cases before with
    | waiting =>
      rw [grown]
      exact (lock_consuming sound.keyed owned stored free positive addresses here found).grows more
    | locked bookedRow delivery =>
      rw [moved]
      simp only [Machine.stepProg,Machine.commitRows] at found ⊢
      split at found
      · rename_i allowed
        rcases resume_at m found with ⟨-,rfl⟩ | ⟨impossible,-⟩
        · rw [if_pos allowed]
          apply Consuming.finished bookedRow
          rw [deliveredTo_snoc m delivery,if_pos rfl]
          exact List.mem_append_right _ List.mem_cons_self
        · exact absurd rfl impossible
      · rename_i refused
        rw [if_neg refused]
        cases here.symm.trans found
        exact .locked bookedRow delivery
    | finished bookedRow delivered =>
      rw [grown]
      rcases resume_at m found with ⟨-,rfl⟩ | ⟨impossible,-⟩
      · exact (Consuming.finished bookedRow delivered).grows more
      · exact absurd rfl impossible
    | killed =>
      cases here.symm.trans found
      exact .killed

theorem run_consuming (sound : m.Sound RowLedger (fun _ => Posts sent) A) (owned : Owned books m)
    (stored : books.table.row id = some (.cashbox opening)) (free : opening.cashboxType ≠ .main) (positive : 0 < d.2.amount)
    (addresses : d.2.Addresses id opening) (consuming : ∀ s,m.sessions[who]? = some s → Consuming books d m.log s) (turns : List Turn) :
    ∀ s,(m.run turns).sessions[who]? = some s → Consuming books d (m.run turns).log s := by
  induction turns generalizing m with
  | nil => exact consuming
  | cons turn rest ih =>
    exact ih (advance_sound sound turn) (advance_owned sound owned turn)
      (advance_consuming sound owned stored free positive addresses consuming turn)

end

-- A consumer that has answered has delivered its message, when nothing is wrong with it.
theorem consume_delivers {id who : Nat} {d : Delivery} (books : Books) {deliveries : List Delivery} (turns : List Turn)
    (stored : books.table.row id = some (.cashbox opening)) (free : opening.cashboxType ≠ .main) (here : deliveries[who]? = some d)
    (positive : 0 < d.2.amount) (addresses : d.2.Addresses id opening)
    (answered : (consume books deliveries turns).sessions[who]? = some ⟨.done reply,held⟩) :
    ∃ key cashbox,books.table.row key = some (.cashbox cashbox) ∧ d.2.Addresses key cashbox ∧
      d.2 ∈ deliveredTo (consume books deliveries turns).log key := by
  have begins : ∀ s,(consume books deliveries []).sessions[who]? = some s → Consuming books d (consume books deliveries []).log s := by
    intro s found
    simp only [consume,run_nil,Machine.start,List.getElem?_map,here,Option.map_some,Option.some.injEq] at found
    subst found
    exact .waiting
  have consuming := run_consuming (consume_sound books deliveries []) (fun _ => rfl) stored free positive addresses begins turns _ answered
  obtain ⟨key,cashbox,bookedRow,delivered⟩ := consuming.answered positive addresses rfl
  exact ⟨key,cashbox,bookedRow,((consume_settled books deliveries turns bookedRow).2.1 _ delivered).2,delivered⟩

end Elchi.Finance

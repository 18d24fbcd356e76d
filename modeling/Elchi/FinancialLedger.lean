import Mathlib.Data.List.Induction
import Mathlib.Data.Rat.Floor
import Elchi.Order
namespace Elchi.Finance
open Orders (FinancialSource)

-- A numeric(20,2) column keeps whole tiyin: PostgreSQL rounds half a tiyin away from zero.
def numeric2 (tiyin : ℚ) : Int := if 0 ≤ tiyin then ⌊tiyin + 1/2⌋ else -⌊-tiyin + 1/2⌋

-- The amount in tiyin as the caller sent it; none when it is not a finite number.
structure FinancialRecord where
  amount : Option ℚ
  sourceType : FinancialSource
  orderId : Option Nat := none
  relatedUserId : Option Nat := none
  comment : Option String := none
  createdBy : Option Nat := none

structure FinancialBalanceHistory where
  id : Nat
  amount : Int
  balanceBefore : Int
  balanceAfter : Int
  sourceType : FinancialSource
  orderId : Option Nat
  relatedUserId : Option Nat
  comment : Option String
  createdBy : Option Nat
deriving DecidableEq, Repr

inductive RecordAnswer where
  | skipped
  | alreadyRecorded (row : FinancialBalanceHistory)
  | recorded (row : FinancialBalanceHistory)
  | failed
deriving DecidableEq, Repr

-- Where a call stands between its statements.
inductive RecordPhase where
  | called
  | locking
  | checking
  | reading
  | inserting (balanceBefore : Int)
  | committing (row : FinancialBalanceHistory)
  | answered (answer : RecordAnswer)
deriving DecidableEq, Repr

-- The committed rows, the id sequence, and who holds the advisory lock.
structure Journals where
  rows : List FinancialBalanceHistory
  nextId : Nat
  holder : Option Nat
  phases : Nat → RecordPhase

def Journals.move (s : Journals) (who : Nat) (phase : RecordPhase) : Journals :=
  {s with phases:=fun other => if other = who then phase else s.phases other}
-- The transaction ends: pg_advisory_xact_lock is released with it.
def Journals.finish (s : Journals) (who : Nat) (answer : RecordAnswer) : Journals :=
  {s.move who (.answered answer) with holder:=if s.holder = some who then none else s.holder}

def latest (rows : List FinancialBalanceHistory) : Option FinancialBalanceHistory :=
  rows.foldl (fun best row => match best with
    | some found => if found.id < row.id then some row else some found
    | none => some row) none
def recordedFor (rows : List FinancialBalanceHistory) (input : FinancialRecord) : Option FinancialBalanceHistory :=
  input.orderId.bind fun orderId => rows.find? fun row => row.orderId == some orderId && row.sourceType == input.sourceType

def newEntry (input : FinancialRecord) (id : Nat) (amount : ℚ) (balanceBefore : Int) : FinancialBalanceHistory :=
  {id:=id,amount:=numeric2 amount,balanceBefore:=balanceBefore,balanceAfter:=numeric2 (balanceBefore + amount),
   sourceType:=input.sourceType,orderId:=input.orderId,relatedUserId:=input.relatedUserId,comment:=input.comment,
   createdBy:=input.createdBy}

-- The next statement of recordFinancialBalance; a call that waits for the lock stays where it is.
def recordFinancialBalance (input : FinancialRecord) (s : Journals) (who : Nat) : Journals :=
  match s.phases who with
  | .called => if input.amount.getD 0 = 0 then s.move who (.answered .skipped) else s.move who .locking
  | .locking => if s.holder = none then {s.move who .checking with holder:=some who} else s
  | .checking => match recordedFor s.rows input with
    | some existing => s.finish who (.alreadyRecorded existing)
    | none => s.move who .reading
  | .reading => s.move who (.inserting (((latest s.rows).map (·.balanceAfter)).getD 0))
  | .inserting balanceBefore =>
    {s.move who (.committing (newEntry input s.nextId (input.amount.getD 0) balanceBefore)) with nextId:=s.nextId+1}
  | .committing row => {s.finish who (.recorded row) with rows:=s.rows ++ [row]}
  | .answered _ => s

-- A call goes on, fails where it stands and is rolled back, or commits without hearing of it.
inductive RecordTurn where
  | go (who : Nat)
  | fail (who : Nat)
  | lost (who : Nat)
deriving DecidableEq, Repr
def Journals.advance (inputs : Nat → FinancialRecord) (s : Journals) : RecordTurn → Journals
  | .go who => recordFinancialBalance (inputs who) s who
  | .fail who => match s.phases who with
    | .answered _ => s
    | _ => s.finish who .failed
  | .lost who => match s.phases who with
    | .committing row => {s.finish who .failed with rows:=s.rows ++ [row]}
    | _ => s
def Journals.run (inputs : Nat → FinancialRecord) (s : Journals) (turns : List RecordTurn) : Journals :=
  turns.foldl (Journals.advance inputs) s
def emptyJournals (nextId : Nat) : Journals := ⟨[],nextId,none,fun _ => .called⟩

-- An amount with half a tiyin over, that takes the balance to the other side of zero: the sum
-- and the amount are rounded in opposite directions.
def Drifts (balance : Int) (amount : ℚ) : Prop :=
  (∃ whole : Int,amount = whole + 1/2) ∧ (0 < amount ∧ balance + amount < 0 ∨ amount < 0 ∧ 0 < balance + amount)

theorem half_exact (amount : ℚ) : ⌊amount + 1/2⌋ = -⌊-amount + 1/2⌋ ↔ ¬∃ whole : Int,amount = whole + 1/2 := by
  constructor
  · intro same ⟨whole,half⟩
    have up : ⌊amount + 1/2⌋ = whole + 1 := by
      rw [Int.floor_eq_iff,half]
      push_cast
      constructor <;> linarith
    have down : ⌊-amount + 1/2⌋ = -whole := by
      rw [Int.floor_eq_iff,half]
      push_cast
      constructor <;> linarith
    omega
  · intro whole
    have low := Int.floor_le (amount + 1/2)
    have high := Int.lt_floor_add_one (amount + 1/2)
    have strict : (⌊amount + 1/2⌋ : ℚ) ≠ amount + 1/2 := by
      intro same
      apply whole
      refine ⟨⌊amount + 1/2⌋ - 1,?_⟩
      push_cast
      linarith
    have less := lt_of_le_of_ne low strict
    have down : ⌊-amount + 1/2⌋ = -⌊amount + 1/2⌋ := by
      rw [Int.floor_eq_iff]
      push_cast
      constructor <;> linarith
    omega

theorem half_nonzero {balance : Int} {amount : ℚ} {whole : Int} (half : amount = whole + 1/2) : (balance : ℚ) + amount ≠ 0 := by
  intro zero
  have twice : ((2 * (balance + whole) + 1 : Int) : ℚ) = 0 := by
    push_cast
    linarith
  have even : 2 * (balance + whole) + 1 = 0 := by exact_mod_cast twice
  omega

theorem numeric2_exact (balance : Int) (amount : ℚ) :
    numeric2 (balance + amount) = balance + numeric2 amount ↔ ¬Drifts balance amount := by
  have shift : ⌊(balance : ℚ) + amount + 1/2⌋ = balance + ⌊amount + 1/2⌋ := by
    rw [add_assoc,Int.floor_intCast_add]
  have back : ⌊-((balance : ℚ) + amount) + 1/2⌋ = -balance + ⌊-amount + 1/2⌋ := by
    rw [neg_add,add_assoc,←Int.cast_neg,Int.floor_intCast_add]
  have half := half_exact amount
  unfold numeric2 Drifts
  rw [shift,back]
  by_cases positive : 0 ≤ amount
  · by_cases above : 0 ≤ (balance : ℚ) + amount
    · rw [if_pos above,if_pos positive]
      refine iff_of_true rfl ?_
      rintro ⟨-,cross | cross⟩ <;> linarith
    · rw [if_neg above,if_pos positive]
      have same : -(-balance + ⌊-amount + 1/2⌋) = balance + ⌊amount + 1/2⌋ ↔ ⌊amount + 1/2⌋ = -⌊-amount + 1/2⌋ := by omega
      rw [same,half,not_iff_not]
      constructor
      · rintro ⟨whole,tie⟩
        have moved : ((0 : Int) : ℚ) + amount ≠ 0 := half_nonzero tie
        exact ⟨⟨whole,tie⟩,.inl ⟨lt_of_le_of_ne positive (by simpa using moved.symm),lt_of_not_ge above⟩⟩
      · exact And.left
  · by_cases above : 0 ≤ (balance : ℚ) + amount
    · rw [if_pos above,if_neg positive]
      have same : balance + ⌊amount + 1/2⌋ = balance + -⌊-amount + 1/2⌋ ↔ ⌊amount + 1/2⌋ = -⌊-amount + 1/2⌋ := by omega
      rw [same,half,not_iff_not]
      constructor
      · rintro ⟨whole,tie⟩
        exact ⟨⟨whole,tie⟩,.inr ⟨lt_of_not_ge positive,lt_of_le_of_ne above (half_nonzero tie).symm⟩⟩
      · exact And.left
    · rw [if_neg above,if_neg positive]
      refine iff_of_true (by omega) ?_
      rintro ⟨-,cross | cross⟩ <;> linarith

-- The balance the last of these rows leaves.
def lastBalance (rows : List FinancialBalanceHistory) : Int := (rows.getLast?.map (·.balanceAfter)).getD 0
def Unrecorded (rows : List FinancialBalanceHistory) (input : FinancialRecord) : Prop :=
  ∀ row ∈ rows,input.orderId.isSome = true → row.orderId = input.orderId → row.sourceType ≠ input.sourceType
def Linked (rows : List FinancialBalanceHistory) : Prop :=
  ∀ before row after,rows = before ++ row :: after → row.balanceBefore = lastBalance before
def PairOnce (first second : FinancialBalanceHistory) : Prop :=
  first.orderId.isSome = true → first.orderId = second.orderId → first.sourceType ≠ second.sourceType

@[simp] theorem closing_snoc (rows : List FinancialBalanceHistory) (row : FinancialBalanceHistory) :
    lastBalance (rows ++ [row]) = row.balanceAfter := by
  simp [lastBalance]

theorem latest_ordered {rows : List FinancialBalanceHistory} (ordered : rows.Pairwise fun first second => first.id < second.id) :
    latest rows = rows.getLast? := by
  induction rows using List.reverseRecOn with
  | nil => rfl
  | append_singleton rows row ih =>
    rw [List.pairwise_append] at ordered
    have earlier := ih ordered.1
    unfold latest at earlier
    rw [latest,List.foldl_append,earlier,List.getLast?_concat]
    cases last : rows.getLast? with
    | none => rfl
    | some found =>
      have less := ordered.2.2 found (List.mem_of_getLast? last) row (by simp)
      simp [less]

theorem recordedFor_none {rows : List FinancialBalanceHistory} {input : FinancialRecord} (none : recordedFor rows input = none) :
    Unrecorded rows input := by
  intro row member present same source
  obtain ⟨orderId,known⟩ := Option.isSome_iff_exists.mp present
  rw [recordedFor,known,Option.bind_some,List.find?_eq_none] at none
  apply none row member
  simp [same,known,source]

theorem linked_snoc {rows : List FinancialBalanceHistory} {row : FinancialBalanceHistory} (linked : Linked rows)
    (next : row.balanceBefore = lastBalance rows) : Linked (rows ++ [row]) := by
  intro before found after split
  cases after using List.reverseRecOn with
  | nil =>
    obtain ⟨rfl,same⟩ := List.append_inj' split rfl
    cases same
    exact next
  | append_singleton after last =>
    rw [←List.cons_append,←List.append_assoc] at split
    exact linked before found after (List.append_inj' split rfl).1

-- What a call knows at each statement, given that it alone holds the lock.
def RecordPhase.inside : RecordPhase → Bool
  | .checking | .reading | .inserting _ | .committing _ => true
  | _ => false
def RecordPhase.Knows (input : FinancialRecord) (rows : List FinancialBalanceHistory) (nextId : Nat) : RecordPhase → Prop
  | .reading => Unrecorded rows input
  | .inserting balanceBefore => Unrecorded rows input ∧ balanceBefore = lastBalance rows
  | .committing row => Unrecorded rows input ∧ row = newEntry input row.id (input.amount.getD 0) (lastBalance rows) ∧
      row.id < nextId ∧ ∀ old ∈ rows,old.id < row.id
  | _ => True
-- Only a call with something to record gets past its first line.
def RecordPhase.begun : RecordPhase → Bool
  | .called | .answered _ => false
  | _ => true

structure Chained (inputs : Nat → FinancialRecord) (s : Journals) : Prop where
  ordered : s.rows.Pairwise fun first second => first.id < second.id
  below : ∀ row ∈ s.rows,row.id < s.nextId
  linked : Linked s.rows
  once : s.rows.Pairwise PairOnce
  sole : ∀ who,(s.phases who).inside = true → s.holder = some who
  knows : ∀ who,(s.phases who).Knows (inputs who) s.rows s.nextId
  nonzero : ∀ who,(s.phases who).begun = true → (inputs who).amount.getD 0 ≠ 0

theorem emptyJournals_chained (inputs : Nat → FinancialRecord) (nextId : Nat) : Chained inputs (emptyJournals nextId) := by
  refine ⟨.nil,by simp [emptyJournals],?_,.nil,?_,?_,?_⟩
  · intro before row after split
    cases before <;> cases split
  · intro who inside
    cases inside
  · exact fun _ => trivial
  · intro who begun
    cases begun

section Steps
variable {inputs : Nat → FinancialRecord} {s : Journals}

theorem move_chained (who : Nat) (phase : RecordPhase) (chained : Chained inputs s) (sole : phase.inside = true → s.holder = some who)
    (knows : phase.Knows (inputs who) s.rows s.nextId) (nonzero : phase.begun = true → (inputs who).amount.getD 0 ≠ 0) :
    Chained inputs (s.move who phase) := by
  refine {ordered:=chained.ordered,below:=chained.below,linked:=chained.linked,once:=chained.once,sole:=?_,knows:=?_,nonzero:=?_}
  · intro other
    by_cases same : other = who
    · subst same
      simpa [Journals.move] using sole
    · simpa [Journals.move,same] using chained.sole other
  · intro other
    by_cases same : other = who
    · subst same
      simpa [Journals.move] using knows
    · simpa [Journals.move,same] using chained.knows other
  · intro other
    by_cases same : other = who
    · subst same
      simpa [Journals.move] using nonzero
    · simpa [Journals.move,same] using chained.nonzero other

theorem finish_chained (who : Nat) (chained : Chained inputs s) (answer : RecordAnswer) : Chained inputs (s.finish who answer) := by
  have moved := move_chained who (.answered answer) chained (by intro inside; cases inside) trivial
    (by intro begun; cases begun)
  refine {moved with sole:=?_}
  intro other inside
  have held := moved.sole other inside
  have apart : other ≠ who := by
    intro same
    subst same
    simp [Journals.finish,Journals.move,RecordPhase.inside] at inside
  have mine : s.holder = some other := held
  simp [Journals.finish,mine,apart]

-- The commit: nobody else is inside, so nobody's knowledge is out of date.
theorem append_chained (chained : Chained inputs s) (ready : s.phases who = .committing row) (answer : RecordAnswer) :
    Chained inputs {s.finish who answer with rows:=s.rows ++ [row]} := by
  have finished := finish_chained who chained answer
  have known := chained.knows who
  rw [ready] at known
  obtain ⟨unrecorded,built,fresh,above⟩ := known
  have mine : s.holder = some who := chained.sole who (by rw [ready]; rfl)
  have out : ∀ other,((s.finish who answer).phases other).inside = false := by
    intro other
    by_contra inside
    have held := finished.sole other (by simpa using inside)
    simp [Journals.finish,mine] at held
  refine {ordered:=?_,below:=?_,linked:=?_,once:=?_,sole:=finished.sole,knows:=?_,nonzero:=finished.nonzero}
  · rw [List.pairwise_append]
    exact ⟨chained.ordered,List.pairwise_singleton _ _,by simpa using above⟩
  · intro old member
    rcases List.mem_append.mp member with earlier | last
    · exact chained.below old earlier
    · cases List.mem_singleton.mp last
      exact fresh
  · apply linked_snoc chained.linked
    rw [built]
    rfl
  · rw [List.pairwise_append]
    refine ⟨chained.once,List.pairwise_singleton _ _,?_⟩
    intro old member new last present same source
    cases List.mem_singleton.mp last
    rw [built] at same source
    exact unrecorded old member (by rw [same] at present; exact present) same source
  · intro other
    have outside := out other
    revert outside
    cases (s.finish who answer).phases other <;> intro outside <;> trivial

theorem record_chained (chained : Chained inputs s) (who : Nat) :
    Chained inputs (recordFinancialBalance (inputs who) s who) := by
  have known := chained.knows who
  have alone := chained.sole who
  have spends := chained.nonzero who
  unfold recordFinancialBalance
  cases phase : s.phases who with
  | called =>
    dsimp only
    split
    · exact move_chained who _ chained (by intro inside; cases inside) trivial (by intro begun; cases begun)
    · rename_i nonzero
      exact move_chained who _ chained (by intro inside; cases inside) trivial fun _ => nonzero
  | locking =>
    rw [phase] at spends
    dsimp only
    split
    · rename_i free
      have nobody : ∀ other,(s.phases other).inside = false := by
        intro other
        by_contra inside
        have held := chained.sole other (by simpa using inside)
        rw [free] at held
        cases held
      have taken : Chained inputs {s with holder:=some who} := by
        refine {chained with sole:=?_}
        intro other inside
        rw [nobody other] at inside
        cases inside
      exact move_chained who .checking taken (fun _ => rfl) trivial fun _ => spends rfl
    · exact chained
  | checking =>
    rw [phase] at alone spends
    dsimp only
    split
    · exact finish_chained who chained _
    · rename_i none
      exact move_chained who _ chained (fun _ => alone rfl) (recordedFor_none none) fun _ => spends rfl
  | reading =>
    rw [phase] at alone spends known
    refine move_chained who _ chained (fun _ => alone rfl) ⟨known,?_⟩ fun _ => spends rfl
    rw [latest_ordered chained.ordered]
    rfl
  | inserting balanceBefore =>
    rw [phase] at alone spends known
    obtain ⟨unrecorded,read⟩ := known
    have later : Chained inputs {s with nextId:=s.nextId+1} := by
      refine {chained with below:=fun row member => Nat.lt_succ_of_lt (chained.below row member),knows:=?_}
      intro other
      have before := chained.knows other
      dsimp only
      revert before
      cases s.phases other with
      | committing row =>
        intro ⟨fresh,built,id,above⟩
        exact ⟨fresh,built,Nat.lt_succ_of_lt id,above⟩
      | _ => exact id
    exact move_chained who (.committing (newEntry (inputs who) s.nextId _ balanceBefore)) later (fun _ => alone rfl)
      ⟨unrecorded,by rw [read]; rfl,Nat.lt_succ_self _,chained.below⟩ fun _ => spends rfl
  | committing row => exact append_chained chained phase _
  | answered answer => exact chained

theorem advance_chained (chained : Chained inputs s) (turn : RecordTurn) : Chained inputs (s.advance inputs turn) := by
  cases turn with
  | go who => exact record_chained chained who
  | fail who =>
    unfold Journals.advance
    dsimp only
    split
    · exact chained
    · exact finish_chained who chained _
  | lost who =>
    unfold Journals.advance
    dsimp only
    split
    · rename_i row ready
      exact append_chained chained ready _
    · exact chained

end Steps

theorem run_chained {inputs : Nat → FinancialRecord} {s : Journals} (chained : Chained inputs s) (turns : List RecordTurn) :
    Chained inputs (s.run inputs turns) := by
  induction turns generalizing s with
  | nil => exact chained
  | cons turn rest ih => exact ih (advance_chained chained turn)

-- All that a turn can do to the rows, and where a call's new row comes from.
theorem record_rows (input : FinancialRecord) (s : Journals) (who : Nat) :
    (recordFinancialBalance input s who).rows = s.rows ∨
    ∃ row,s.phases who = .committing row ∧ (recordFinancialBalance input s who).rows = s.rows ++ [row] := by
  unfold recordFinancialBalance
  cases phase : s.phases who with
  | committing row => exact .inr ⟨row,rfl,rfl⟩
  | called =>
    left
    dsimp only
    split
    · rfl
    · rfl
  | locking =>
    left
    dsimp only
    split
    · rfl
    · rfl
  | checking =>
    left
    dsimp only
    split
    · rfl
    · rfl
  | _ => exact .inl rfl

theorem advance_rows (inputs : Nat → FinancialRecord) (s : Journals) (turn : RecordTurn) :
    (s.advance inputs turn).rows = s.rows ∨
    ∃ who row,s.phases who = .committing row ∧ (s.advance inputs turn).rows = s.rows ++ [row] := by
  cases turn with
  | go who => exact (record_rows (inputs who) s who).imp_right fun ⟨row,ready,appended⟩ => ⟨who,row,ready,appended⟩
  | fail who =>
    left
    unfold Journals.advance
    dsimp only
    split
    · rfl
    · rfl
  | lost who =>
    unfold Journals.advance
    dsimp only
    split
    · rename_i row ready
      exact .inr ⟨who,row,ready,rfl⟩
    · exact .inl rfl

theorem moved_committing {s : Journals} {who other : Nat} {phase : RecordPhase} (quiet : ∀ row,phase ≠ .committing row)
    (now : (s.move who phase).phases other = .committing row) : s.phases other = .committing row := by
  unfold Journals.move at now
  dsimp only at now
  split at now
  · exact absurd now (quiet row)
  · exact now

theorem record_committing {input : FinancialRecord} {s : Journals} {who other : Nat}
    (now : (recordFinancialBalance input s who).phases other = .committing row) :
    s.phases other = .committing row ∨ ∃ balance,other = who ∧ s.phases other = .inserting balance ∧
      row = newEntry input s.nextId (input.amount.getD 0) balance := by
  unfold recordFinancialBalance at now
  cases phase : s.phases who with
  | inserting balance =>
    simp only [phase,Journals.move] at now
    split at now
    · rename_i same
      subst same
      exact .inr ⟨balance,rfl,phase,(RecordPhase.committing.inj now).symm⟩
    · exact .inl now
  | called =>
    left
    simp only [phase] at now
    split at now
    · exact moved_committing (by simp) now
    · exact moved_committing (by simp) now
  | locking =>
    left
    simp only [phase] at now
    split at now
    · exact moved_committing (by simp) now
    · exact now
  | checking =>
    left
    simp only [phase] at now
    split at now
    · exact moved_committing (by simp) now
    · exact moved_committing (by simp) now
  | reading =>
    left
    simp only [phase] at now
    exact moved_committing (by simp) now
  | committing old =>
    left
    simp only [phase] at now
    exact moved_committing (by simp) now
  | answered answer =>
    left
    simpa only [phase] using now

theorem advance_committing {inputs : Nat → FinancialRecord} {s : Journals} {turn : RecordTurn}
    (now : (s.advance inputs turn).phases other = .committing row) :
    s.phases other = .committing row ∨ ∃ balance,turn = .go other ∧ s.phases other = .inserting balance ∧
      row = newEntry (inputs other) s.nextId ((inputs other).amount.getD 0) balance := by
  cases turn with
  | go who =>
    rcases record_committing now with before | ⟨balance,rfl,phase,built⟩
    · exact .inl before
    · exact .inr ⟨balance,rfl,phase,built⟩
  | fail who =>
    left
    unfold Journals.advance at now
    dsimp only at now
    split at now
    · exact now
    · exact moved_committing (by simp) now
  | lost who =>
    left
    unfold Journals.advance at now
    dsimp only at now
    split at now
    · exact moved_committing (by simp) now
    · exact now

structure Added (s : Journals) : Prop where
  rows : ∀ row ∈ s.rows,row.balanceAfter = row.balanceBefore + row.amount
  new : ∀ who row,s.phases who = .committing row → row.balanceAfter = row.balanceBefore + row.amount

theorem advance_added {inputs : Nat → FinancialRecord} {s : Journals} {turn : RecordTurn} (added : Added s)
    (exact : ∀ who balance,turn = .go who → s.phases who = .inserting balance → ¬Drifts balance ((inputs who).amount.getD 0)) :
    Added (s.advance inputs turn) := by
  constructor
  · rcases advance_rows inputs s turn with same | ⟨who,row,ready,appended⟩
    · rw [same]
      exact added.rows
    · rw [appended]
      intro found member
      rcases List.mem_append.mp member with earlier | last
      · exact added.rows found earlier
      · cases List.mem_singleton.mp last
        exact added.new who row ready
  · intro who row now
    rcases advance_committing now with before | ⟨balance,mine,phase,built⟩
    · exact added.new who row before
    · rw [built]
      exact (numeric2_exact _ _).mpr (exact who balance mine phase)

theorem closing_sum {rows : List FinancialBalanceHistory} (linked : Linked rows)
    (added : ∀ row ∈ rows,row.balanceAfter = row.balanceBefore + row.amount) : lastBalance rows = (rows.map (·.amount)).sum := by
  induction rows using List.reverseRecOn with
  | nil => rfl
  | append_singleton rows row ih =>
    have earlier := ih (fun before found after split => linked before found (after ++ [row]) (by simp [split]))
      fun found member => added found (by simp [member])
    rw [closing_snoc,added row (by simp),linked rows row [] rfl,earlier]
    simp

structure LedgerChain (rows : List FinancialBalanceHistory) : Prop where
  ordered : rows.Pairwise fun first second => first.id < second.id
  linked : ∀ before row after,rows = before ++ row :: after → row.balanceBefore = lastBalance before
  summed : ∀ before row after,rows = before ++ row :: after → row.balanceAfter = ((before ++ [row]).map (·.amount)).sum
  once : rows.Pairwise PairOnce

-- Every append is that of a call with something to record, for an order and source of which no
-- row exists yet.
def AppendsNew (inputs : Nat → FinancialRecord) (s : Journals) (turn : RecordTurn) : Prop :=
  (s.advance inputs turn).rows = s.rows ∨ ∃ who row,(s.advance inputs turn).rows = s.rows ++ [row] ∧
    (inputs who).amount.getD 0 ≠ 0 ∧ row.orderId = (inputs who).orderId ∧ row.sourceType = (inputs who).sourceType ∧
    Unrecorded s.rows (inputs who)

theorem chained_appends {inputs : Nat → FinancialRecord} {s : Journals} (chained : Chained inputs s) (turn : RecordTurn) :
    AppendsNew inputs s turn := by
  rcases advance_rows inputs s turn with same | ⟨who,row,ready,appended⟩
  · exact .inl same
  · have known := chained.knows who
    have spends := chained.nonzero who
    rw [ready] at known spends
    obtain ⟨unrecorded,built,-,-⟩ := known
    exact .inr ⟨who,row,appended,spends rfl,by rw [built]; rfl,by rw [built]; rfl,unrecorded⟩

theorem run_added {inputs : Nat → FinancialRecord} {s : Journals} (added : Added s) {turns : List RecordTurn}
    (exact : ∀ before who after balance,turns = before ++ .go who :: after → (s.run inputs before).phases who = .inserting balance →
      ¬Drifts balance ((inputs who).amount.getD 0)) : Added (s.run inputs turns) := by
  induction turns generalizing s with
  | nil => exact added
  | cons turn rest ih =>
    apply ih
    · apply advance_added added
      intro who balance mine phase
      exact exact [] who rest balance (by rw [mine]; rfl) phase
    · intro before who after balance split phase
      exact exact (turn :: before) who after balance (by rw [split]; rfl) phase

-- An amount in whole tiyin never drifts.
theorem whole_exact (balance whole : Int) : ¬Drifts balance whole := by
  intro ⟨⟨other,half⟩,_⟩
  have apart : ((-whole : Int) : ℚ) + (whole : ℚ) ≠ 0 := half_nonzero half
  apply apart
  push_cast
  ring

-- Two deliveries of one order's profit, an expense and an empty entry, with a failed insert
-- between them that uses up an id.
def sampleRecords (who : Nat) : FinancialRecord :=
  if who = 2 then {amount:=some ((-200 : Int) : ℚ),sourceType:=.manualExpense}
  else if who = 3 then {amount:=some ((0 : Int) : ℚ),sourceType:=.bills}
  else {amount:=some ((500 : Int) : ℚ),sourceType:=.sellProfit,orderId:=some 7}
def sampleRecordTurns : List RecordTurn :=
  [.go 0,.go 1,.go 3,.go 1,.go 2,.go 0,.go 1,.go 1,.go 1,.fail 1,.go 0,.go 2,.go 0,.go 0,.go 0,.go 0,.go 4,.go 4,.go 4,
   .go 2,.go 2,.go 2,.go 2,.go 2]

-- One tiyin in, then half a tiyin out: the column keeps -1 for the entry and 1 for the balance.
def halfTiyin (who : Nat) : FinancialRecord :=
  if who = 0 then {amount:=some 1,sourceType:=.manualIncome} else {amount:=some (-1/2),sourceType:=.manualExpense}

def halfTiyinTurns : List RecordTurn := [.go 0,.go 0,.go 0,.go 0,.go 0,.go 0,.go 1,.go 1,.go 1,.go 1,.go 1,.go 1]

end Elchi.Finance

import Elchi.Remittances
import Elchi.DepotRows
namespace Elchi.Remittances
open RowLock hiding Machine Turn
open Interleaving
open Webhooks (Receivable ReceivableWrite Drive Fate recordProviderReceivable cancelProviderReceivable liveReceivable)
open Batches (select_keyed)

def sumOf (rows : Table Receivable) : Int := Fifo.total (fun entry => entry.2.amount) rows

section Loop
variable {tx : Settling}

-- Where the loop stands: the rows saved so far are a front of the rows read.
structure Progress (tx : Settling) : Prop where
  split : tx.pending = tx.settled ++ tx.rest
  remaining : tx.remaining = tx.input.amount - sumOf tx.settled
  amount : tx.settledAmount = sumOf tx.settled
  count : tx.settledCount = tx.settled.length
  covered : tx.input.orderIds = [] → sumOf tx.settled ≤ tx.input.amount
  distinct : Table.Keyed tx.pending
  positive : ∀ entry ∈ tx.pending,0 < entry.2.amount

theorem start_progress {input : RemittanceInput} {pending : Table Receivable} (paid : 0 < input.amount) (distinct : Table.Keyed pending)
    (positive : ∀ entry ∈ pending,0 < entry.2.amount) (remittanceId now : Nat) : Progress (.start input remittanceId now pending) :=
  ⟨rfl,(Int.sub_zero _).symm,rfl,rfl,fun _ => Int.le_of_lt paid,distinct,positive⟩
theorem next_rest (found : tx.next = some entry) : tx.rest = entry :: tx.rest.tail ∧ (tx.input.orderIds = [] → entry.2.amount ≤ tx.remaining) := by
  unfold Settling.next at found
  cases rest : tx.rest with
  | nil => rw [rest] at found; cases found
  | cons first others =>
    rw [rest] at found
    dsimp only at found
    split at found
    · cases found
    · rename_i covers
      cases found
      refine ⟨rfl,fun none => ?_⟩
      simp only [none,List.isEmpty_nil,Bool.true_and,decide_eq_true_eq] at covers
      omega
theorem take_progress (progress : Progress tx) (found : tx.next = some entry) : Progress (tx.take entry) := by
  obtain ⟨rest,covers⟩ := next_rest found
  have more : sumOf (tx.settled ++ [entry]) = sumOf tx.settled + entry.2.amount := by simp [sumOf]
  refine ⟨?_,?_,?_,?_,fun none => ?_,progress.distinct,progress.positive⟩
  · calc tx.pending = tx.settled ++ tx.rest := progress.split
      _ = tx.settled ++ (entry :: tx.rest.tail) := by rw [← rest]
      _ = (tx.settled ++ [entry]) ++ tx.rest.tail := by simp
  · change tx.remaining - entry.2.amount = tx.input.amount - sumOf (tx.settled ++ [entry])
    rw [more,progress.remaining]
    omega
  · change tx.settledAmount + entry.2.amount = sumOf (tx.settled ++ [entry])
    rw [more,progress.amount]
  · change tx.settledCount + 1 = (tx.settled ++ [entry]).length
    rw [progress.count,List.length_append,List.length_singleton]
  · have enough := covers none
    rw [progress.remaining] at enough
    change sumOf (tx.settled ++ [entry]) ≤ tx.input.amount
    rw [more]
    omega

-- When it stops without order ids, no longer front of the rows read is covered by the amount.
theorem stop_longest (progress : Progress tx) (stopped : tx.next = none) (free : tx.input.orderIds = []) {front : Table Receivable}
    (reached : front <+: tx.pending) (fits : sumOf front ≤ tx.input.amount) : front <+: tx.settled := by
  have settled : tx.settled <+: tx.pending := ⟨tx.rest,progress.split.symm⟩
  obtain shorter | longer := List.prefix_or_prefix_of_prefix reached settled
  · exact shorter
  · obtain ⟨more,rfl⟩ := longer
    cases more with
    | nil => simp
    | cons entry others =>
      -- the first row beyond the settled ones is the one the loop has stopped at
      rw [progress.split] at reached
      obtain ⟨rest,same⟩ := (List.prefix_append_right_inj tx.settled).mp reached
      unfold Settling.next at stopped
      rw [← same] at stopped
      simp only [List.cons_append,free,List.isEmpty_nil,Bool.true_and,decide_eq_true_eq,ite_eq_left_iff,reduceCtorEq,imp_false,
        not_not] at stopped
      have beyond : ∀ later ∈ others,0 ≤ later.2.amount := fun later member => by
        refine Int.le_of_lt (progress.positive later ?_)
        rw [progress.split,← same]
        simp [member]
      have nonneg : 0 ≤ sumOf others := List.sum_nonneg fun value listed => by
        obtain ⟨later,member,rfl⟩ := List.mem_map.mp listed
        exact beyond later member
      have total : sumOf (tx.settled ++ entry :: others) = sumOf tx.settled + (entry.2.amount + sumOf others) := by simp [sumOf]
      rw [total] at fits
      rw [progress.remaining] at stopped
      omega

end Loop

section Marks
variable {g : Books} {tx : Settling}

-- Which remittance a receivable is marked with.
def Books.mark (g : Books) (id : Nat) : Option Nat := (g.receivables.row id).bind (·.remittanceId)
-- A row that is marked exactly when it is settled.
structure Tidy (row : Receivable) : Prop where
  marked : row.status = .settled ↔ row.remittanceId.isSome = true
  positive : 0 < row.amount
-- The committed books: a remittance counts the receivables marked with it.
structure Kept (g : Books) : Prop where
  keyed : g.receivables.Keyed
  below : ∀ id row,g.receivables.row id = some row → id < g.nextReceivableId
  tidy : ∀ id row,g.receivables.row id = some row → Tidy row
  exclusive : g.locks.Exclusive
  booked : ∀ entry ∈ g.remittances,entry.1 < g.nextRemittanceId
  issued : ∀ id remittanceId,g.mark id = some remittanceId → remittanceId < g.nextRemittanceId
  counted : ∀ entry ∈ g.remittances,∃ ids : List Nat,ids.Nodup ∧ ids.length = entry.2.settledCount ∧
    ∀ id,g.mark id = some entry.1 ↔ id ∈ ids

theorem mark_unsettled {id : Nat} (kept : Kept g) (unsettled : ∀ row ∈ g.receivables.row id,row.status ≠ .settled) : g.mark id = none := by
  cases stored : g.receivables.row id with
  | none => simp only [Books.mark,stored,Option.bind_none]
  | some row =>
    have unmarked := (not_congr (kept.tidy id row stored).marked).mp (unsettled row stored)
    simpa only [Books.mark,stored,Option.bind_some,Bool.not_eq_true,Option.isSome_eq_false_iff,Option.isNone_iff_eq_none] using unmarked

-- The transaction's rows: it alone has locked them, they are there and not settled, and nothing is
-- marked with its remittance yet.
structure Open (who : Nat) (g : Books) (tx : Settling) : Prop where
  issued : tx.remittanceId < g.nextRemittanceId
  unbooked : ∀ entry ∈ g.remittances,entry.1 ≠ tx.remittanceId
  unmarked : ∀ id,g.mark id ≠ some tx.remittanceId
  locked : ∀ entry ∈ tx.settled,(entry.1,who) ∈ g.locks
  there : ∀ entry ∈ tx.settled,∃ row,g.receivables.row entry.1 = some row ∧ row.status ≠ .settled

theorem written_entries {V : Type} {entries : Table V} (distinct : entries.Keyed) (f : V → V) (key : Nat) (row : Option V) :
    written (entries.map fun entry => .update entry.1 fun _ => f entry.2) key row =
      (entries.row key).elim row fun value => row.map fun _ => f value := by
  induction entries generalizing row with
  | nil => rfl
  | cons entry rest ih =>
    obtain ⟨absent,tail⟩ := List.nodup_cons.mp distinct
    rw [List.map_cons,written_update,ih tail,row_cons]
    by_cases same : entry.1 = key
    · subst same
      simp only [row_none.mpr absent,if_true,Option.elim_none,Option.elim_some]
    · simp only [same,if_false]

theorem settled_keyed (progress : Progress tx) : Table.Keyed tx.settled := by
  have distinct := progress.distinct
  rw [progress.split] at distinct
  unfold Table.Keyed at distinct ⊢
  rw [List.map_append] at distinct
  exact (List.nodup_append.mp distinct).1
theorem commit_row (progress : Progress tx) (id : Nat) :
    (g.commit tx).receivables.row id =
      (tx.settled.row id).elim (g.receivables.row id) fun row => (g.receivables.row id).map fun _ => tx.row row := by
  change (applyWrites g.receivables tx.writes).row id = _
  rw [applyWrites_row]
  exact written_entries (settled_keyed progress) tx.row id _
theorem commit_mark (progress : Progress tx) (opened : Open who g tx) (id : Nat) :
    (g.commit tx).mark id = if id ∈ tx.settled.map (·.1) then some tx.remittanceId else g.mark id := by
  unfold Books.mark
  rw [commit_row progress]
  cases found : tx.settled.row id with
  | none => rw [if_neg (row_none.mp found),Option.elim_none]
  | some row =>
    have member : (id,row) ∈ tx.settled := (row_exact (settled_keyed progress)).mpr found
    obtain ⟨stored,here,-⟩ := opened.there (id,row) member
    rw [if_pos (List.mem_map.mpr ⟨_,member,rfl⟩)]
    simp only [here,Option.elim_some,Option.map_some,Option.bind_some,Settling.row]

theorem save_row (id : Nat) (row : Receivable) (other : Nat) :
    (g.save id row).receivables.row other = if id = other then (g.receivables.row other).map fun _ => row else g.receivables.row other :=
  apply_row (.update id fun _ => row) g.receivables other
theorem insert_row (row : Receivable) (other : Nat) :
    (g.insert row).receivables.row other = if g.nextReceivableId = other then some row else g.receivables.row other :=
  row_put g.receivables g.nextReceivableId other row
theorem tidy_unmarked {row : Receivable} (tidy : Tidy row) (unsettled : row.status ≠ .settled) : row.remittanceId = none := by
  have unmarked := (not_congr tidy.marked).mp unsettled
  simpa only [Bool.not_eq_true,Option.isSome_eq_false_iff,Option.isNone_iff_eq_none] using unmarked
theorem unborn (kept : Kept g) : g.receivables.row g.nextReceivableId = none := by
  cases stored : g.receivables.row g.nextReceivableId with
  | none => rfl
  | some row => exact absurd (kept.below _ row stored) (Nat.lt_irrefl _)
theorem save_mark (kept : Kept g) {id : Nat} {row : Receivable} (unsettled : ∀ old ∈ g.receivables.row id,old.status ≠ .settled) (tidy : Tidy row)
    (still : row.status ≠ .settled) (other : Nat) : (g.save id row).mark other = g.mark other := by
  by_cases same : id = other
  · subst same
    rw [mark_unsettled kept unsettled]
    simp only [Books.mark,save_row,if_true]
    cases g.receivables.row id with
    | none => rfl
    | some old => exact tidy_unmarked tidy still
  · simp only [Books.mark,save_row,same,if_false]
theorem insert_mark (kept : Kept g) {row : Receivable} (tidy : Tidy row) (still : row.status ≠ .settled) (other : Nat) :
    (g.insert row).mark other = g.mark other := by
  by_cases same : g.nextReceivableId = other
  · subst same
    simp only [Books.mark,insert_row,if_true,unborn kept,Option.bind_some,Option.bind_none]
    exact tidy_unmarked tidy still
  · simp only [Books.mark,insert_row,same,if_false]

-- Everything a statement of a request can do to the books, the request's own remittance being
-- `current`.
inductive Effect (who : Nat) (current : Option Nat) (g : Books) : Books → Prop where
  | keeps : Effect who current g g
  | draws : Effect who current g {g with nextRemittanceId:=g.nextRemittanceId+1}
  | locks {id : Nat} (free : g.locks.free who id = true) : Effect who current g {g with locks:=(id,who) :: g.locks}
  | saves {id : Nat} {row : Receivable} (free : g.locks.free who id = true) (unsettled : ∀ old ∈ g.receivables.row id,old.status ≠ .settled)
      (tidy : Tidy row) (still : row.status ≠ .settled) : Effect who current g (g.save id row)
  | inserts {row : Receivable} (tidy : Tidy row) (still : row.status ≠ .settled) : Effect who current g (g.insert row)
  | commits {tx : Settling} (mine : current = some tx.remittanceId) (progress : Progress tx) (opened : Open who g tx) : Effect who current g (g.commit tx)

theorem open_unmarked (kept : Kept g) (opened : Open who g tx) {entry : Nat × Receivable} (member : entry ∈ tx.settled) : g.mark entry.1 = none := by
  obtain ⟨row,here,unsettled⟩ := opened.there entry member
  exact mark_unsettled kept fun found there => by
    cases here.symm.trans there
    exact unsettled
theorem effect_kept {current : Option Nat} (kept : Kept g) (effect : Effect who current g g') : Kept g' := by
  cases effect with
  | keeps => exact kept
  | draws =>
    exact ⟨kept.keyed,kept.below,kept.tidy,kept.exclusive,fun entry booked => Nat.lt_succ_of_lt (kept.booked entry booked),
      fun id remittanceId marked => Nat.lt_succ_of_lt (kept.issued id remittanceId marked),kept.counted⟩
  | locks free => exact ⟨kept.keyed,kept.below,kept.tidy,exclusive_take kept.exclusive free,kept.booked,kept.issued,kept.counted⟩
  | saves free unsettled tidy still =>
    rename_i id row
    have marks := save_mark kept unsettled tidy still
    refine ⟨apply_keyed _ kept.keyed,fun other stored here => ?_,fun other stored here => ?_,kept.exclusive,kept.booked,fun other remittanceId marked => ?_,
      fun entry booked => ?_⟩
    · rw [save_row] at here
      split at here
      · obtain ⟨old,there,-⟩ := Option.map_eq_some_iff.mp here
        exact kept.below other old there
      · exact kept.below other stored here
    · rw [save_row] at here
      split at here
      · obtain ⟨old,there,rfl⟩ := Option.map_eq_some_iff.mp here
        exact tidy
      · exact kept.tidy other stored here
    · rw [marks] at marked
      exact kept.issued other remittanceId marked
    · obtain ⟨ids,distinct,counted,same⟩ := kept.counted entry booked
      exact ⟨ids,distinct,counted,fun other => by rw [marks]; exact same other⟩
  | inserts tidy still =>
    rename_i row
    have marks := insert_mark kept tidy still
    refine ⟨put_keyed kept.keyed _ _,fun other stored here => ?_,fun other stored here => ?_,kept.exclusive,kept.booked,fun other remittanceId marked => ?_,
      fun entry booked => ?_⟩
    · rw [insert_row] at here
      split at here
      · rename_i same
        exact same ▸ Nat.lt_succ_self _
      · exact Nat.lt_succ_of_lt (kept.below other stored here)
    · rw [insert_row] at here
      split at here
      · cases here
        exact tidy
      · exact kept.tidy other stored here
    · rw [marks] at marked
      exact kept.issued other remittanceId marked
    · obtain ⟨ids,distinct,counted,same⟩ := kept.counted entry booked
      exact ⟨ids,distinct,counted,fun other => by rw [marks]; exact same other⟩
  | commits mine progress opened =>
    rename_i tx
    have marks := commit_mark progress opened
    refine ⟨applyWrites_keyed _ kept.keyed,fun other stored here => ?_,fun other stored here => ?_,kept.exclusive,fun entry booked => ?_,
      fun other remittanceId marked => ?_,fun entry booked => ?_⟩
    · rw [commit_row progress] at here
      cases found : tx.settled.row other with
      | none => rw [found] at here; exact kept.below other stored here
      | some row =>
        rw [found] at here
        obtain ⟨old,there,-⟩ := Option.map_eq_some_iff.mp here
        exact kept.below other old there
    · rw [commit_row progress] at here
      cases found : tx.settled.row other with
      | none => rw [found] at here; exact kept.tidy other stored here
      | some row =>
        rw [found] at here
        obtain ⟨old,there,rfl⟩ := Option.map_eq_some_iff.mp here
        have member : (other,row) ∈ tx.pending := by
          rw [progress.split]
          exact List.mem_append_left _ ((row_exact (settled_keyed progress)).mpr found)
        exact ⟨by simp [Settling.row],progress.positive _ member⟩
    · obtain old | new := List.mem_append.mp booked
      · exact kept.booked entry old
      · rw [List.mem_singleton] at new
        subst new
        exact opened.issued
    · rw [marks] at marked
      split at marked
      · cases marked
        exact opened.issued
      · exact kept.issued other remittanceId marked
    · obtain old | new := List.mem_append.mp booked
      · obtain ⟨ids,distinct,counted,same⟩ := kept.counted entry old
        refine ⟨ids,distinct,counted,fun other => ?_⟩
        rw [← same other,marks]
        split
        · rename_i listed
          -- a row of this remittance was not marked before
          obtain ⟨saved,member,rfl⟩ := List.mem_map.mp listed
          rw [open_unmarked kept opened member]
          exact ⟨fun mine => absurd (Option.some_inj.mp mine).symm (opened.unbooked entry old),fun none => by cases none⟩
        · exact Iff.rfl
      · rw [List.mem_singleton] at new
        subst new
        have distinct : (tx.settled.map (·.1)).Nodup := settled_keyed progress
        refine ⟨_,distinct,(List.length_map _).trans progress.count.symm,fun other => ?_⟩
        rw [marks]
        split
        · rename_i listed
          exact ⟨fun _ => listed,fun _ => rfl⟩
        · rename_i outside
          exact ⟨fun marked => absurd marked (opened.unmarked other),fun listed => absurd listed outside⟩
theorem release_kept (kept : Kept g) (who : Nat) : Kept (g.release who) :=
  ⟨kept.keyed,kept.below,kept.tidy,exclusive_release kept.exclusive who,kept.booked,kept.issued,kept.counted⟩

end Marks

-- What a request relies on where it stands.
def At (who : Nat) (g : Books) : Clerk → Prop
  | .finding input => 0 < input.amount
  | .opening input pending => 0 < input.amount ∧ Table.Keyed pending ∧ (∀ entry ∈ pending,0 < entry.2.amount) ∧
    ∀ entry ∈ pending,(g.receivables.row entry.1).isSome = true
  | .settling tx => Progress tx ∧ Open who g tx ∧ ∀ entry ∈ tx.rest,(g.receivables.row entry.1).isSome = true
  | .counting tx | .committing tx => Progress tx ∧ Open who g tx ∧ tx.next = none
  | .remitted tx answer => Progress tx ∧ tx.next = none ∧ answer = tx.answer ∧ ∀ entry ∈ tx.settled,g.mark entry.1 = some tx.remittanceId
  | .saving (.save _ row) | .saving (.insert row) => Tidy row ∧ row.status ≠ .settled
  | _ => True
def Clerk.remittanceId : Clerk → Option Nat
  | .settling tx | .counting tx | .committing tx | .remitted tx _ => some tx.remittanceId
  | _ => none

section Effects
variable {g g' : Books} {who other : Nat} {current : Option Nat} {tx : Settling}

theorem effect_present (effect : Effect who current g g') {id : Nat} (present : (g.receivables.row id).isSome = true) :
    (g'.receivables.row id).isSome = true := by
  cases effect with
  | keeps => exact present
  | draws => exact present
  | locks _ => exact present
  | saves _ _ _ _ =>
    rw [save_row]
    split
    · rw [Option.isSome_map]; exact present
    · exact present
  | inserts _ _ =>
    rw [insert_row]
    split
    · rfl
    · exact present
  | commits mine progress opened =>
    rename_i done
    rw [commit_row progress]
    cases done.settled.row id with
    | none => exact present
    | some row => rw [Option.elim_some,Option.isSome_map]; exact present
theorem effect_marked (kept : Kept g) (effect : Effect who current g g') {id remittanceId : Nat} (marked : g.mark id = some remittanceId) :
    g'.mark id = some remittanceId := by
  cases effect with
  | keeps => exact marked
  | draws => exact marked
  | locks _ => exact marked
  | saves _ unsettled tidy still => exact (save_mark kept unsettled tidy still id).trans marked
  | inserts tidy still => exact (insert_mark kept tidy still id).trans marked
  | commits _ progress opened =>
    rw [commit_mark progress opened]
    split
    · rename_i listed
      obtain ⟨saved,member,rfl⟩ := List.mem_map.mp listed
      rw [open_unmarked kept opened member] at marked
      cases marked
    · exact marked
theorem open_others (kept : Kept g) (effect : Effect who current g g') (apart : other ≠ who) (distinct : current ≠ some tx.remittanceId)
    (opened : Open other g tx) : Open other g' tx := by
  cases effect with
  | keeps => exact opened
  | draws => exact ⟨Nat.lt_succ_of_lt opened.issued,opened.unbooked,opened.unmarked,opened.locked,opened.there⟩
  | locks _ =>
    exact ⟨opened.issued,opened.unbooked,opened.unmarked,fun entry member => .tail _ (opened.locked entry member),opened.there⟩
  | saves free unsettled tidy still =>
    rename_i id row
    refine ⟨opened.issued,opened.unbooked,fun key => ?_,opened.locked,fun entry member => ?_⟩
    · rw [save_mark kept unsettled tidy still]
      exact opened.unmarked key
    · have elsewhere : id ≠ entry.1 := by
        rintro rfl
        exact apart (free_owner free (opened.locked entry member))
      rw [save_row,if_neg elsewhere]
      exact opened.there entry member
  | inserts tidy still =>
    refine ⟨opened.issued,opened.unbooked,fun key => ?_,opened.locked,fun entry member => ?_⟩
    · rw [insert_mark kept tidy still]
      exact opened.unmarked key
    · obtain ⟨row,here,unsettled⟩ := opened.there entry member
      have elsewhere : g.nextReceivableId ≠ entry.1 := fun same => by
        rw [← same,unborn kept] at here
        cases here
      rw [insert_row,if_neg elsewhere]
      exact ⟨row,here,unsettled⟩
  | commits mine progress committed =>
    rename_i done
    refine ⟨opened.issued,fun entry booked => ?_,fun key marked => ?_,opened.locked,fun entry member => ?_⟩
    · obtain old | new := List.mem_append.mp booked
      · exact opened.unbooked entry old
      · rw [List.mem_singleton] at new
        subst new
        exact fun same => distinct (mine.trans (congrArg some same))
    · rw [commit_mark progress committed] at marked
      split at marked
      · exact distinct (mine.trans marked)
      · exact opened.unmarked key marked
    · -- the two transactions have locked different rows
      have outside : done.settled.row entry.1 = none := row_none.mpr fun listed => by
        obtain ⟨saved,inside,same⟩ := List.mem_map.mp listed
        exact apart (kept.exclusive entry.1 other who (opened.locked entry member) (same ▸ committed.locked saved inside))
      rw [commit_row progress,outside]
      exact opened.there entry member
theorem release_open (apart : other ≠ who) (opened : Open other g tx) : Open other (g.release who) tx :=
  ⟨opened.issued,opened.unbooked,opened.unmarked,fun entry member => release_other (opened.locked entry member) apart,opened.there⟩

theorem at_others (kept : Kept g) (effect : Effect who current g g') (apart : other ≠ who) {idle : Clerk}
    (distinct : ∀ remittanceId,current = some remittanceId → idle.remittanceId ≠ some remittanceId) (stands : At other g idle) : At other g' idle := by
  have elsewhere : ∀ tx : Settling,idle.remittanceId = some tx.remittanceId → current ≠ some tx.remittanceId :=
    fun tx mine same => distinct tx.remittanceId same mine
  cases idle with
  | opening input pending =>
    obtain ⟨paid,keyed,positive,present⟩ := stands
    exact ⟨paid,keyed,positive,fun entry member => effect_present effect (present entry member)⟩
  | settling tx =>
    obtain ⟨progress,opened,present⟩ := stands
    exact ⟨progress,open_others kept effect apart (elsewhere tx rfl) opened,fun entry member => effect_present effect (present entry member)⟩
  | counting tx =>
    obtain ⟨progress,opened,stopped⟩ := stands
    exact ⟨progress,open_others kept effect apart (elsewhere tx rfl) opened,stopped⟩
  | committing tx =>
    obtain ⟨progress,opened,stopped⟩ := stands
    exact ⟨progress,open_others kept effect apart (elsewhere tx rfl) opened,stopped⟩
  | remitted tx answer =>
    obtain ⟨progress,stopped,answered,marks⟩ := stands
    exact ⟨progress,stopped,answered,fun entry member => effect_marked kept effect (marks entry member)⟩
  | saving write => cases write <;> exact stands
  | finding _ => exact stands
  | _ => trivial
theorem at_release (apart : other ≠ who) {idle : Clerk} (stands : At other g idle) : At other (g.release who) idle := by
  cases idle with
  | settling tx =>
    obtain ⟨progress,opened,present⟩ := stands
    exact ⟨progress,release_open apart opened,present⟩
  | counting tx =>
    obtain ⟨progress,opened,stopped⟩ := stands
    exact ⟨progress,release_open apart opened,stopped⟩
  | committing tx =>
    obtain ⟨progress,opened,stopped⟩ := stands
    exact ⟨progress,release_open apart opened,stopped⟩
  | opening _ _ => exact stands
  | remitted _ _ => exact stands
  | saving write => cases write <;> exact stands
  | finding _ => exact stands
  | _ => trivial

end Effects

section Steps
variable {integrations : List Nat} {g : Books} {who : Nat}

def rowOf : ReceivableWrite → Receivable
  | .save _ row => row
  | .insert row => row
theorem record_tidy {now integrationId : Nat} {drive : Drive} {amount : Int} {receivables : Table Receivable} {write : ReceivableWrite}
    (recorded : recordProviderReceivable now integrationId drive amount receivables = some write) :
    Tidy (rowOf write) ∧ (rowOf write).status ≠ .settled := by
  unfold recordProviderReceivable at recorded
  split at recorded
  · rename_i positive
    split at recorded
    · split at recorded
      · cases recorded
      · cases recorded
        exact ⟨⟨by simp [rowOf],positive⟩,by simp [rowOf]⟩
    · cases recorded
      exact ⟨⟨by simp [rowOf],positive⟩,by simp [rowOf]⟩
  · cases recorded
theorem cancel_tidy (kept : Kept g) {integrationId orderId : Nat} {write : ReceivableWrite}
    (cancelled : cancelProviderReceivable integrationId orderId g.receivables = some write) :
    Tidy (rowOf write) ∧ (rowOf write).status ≠ .settled := by
  obtain ⟨entry,found,rfl⟩ := Option.map_eq_some_iff.mp cancelled
  have chosen := List.find?_some found
  simp only [Bool.and_eq_true,beq_iff_eq] at chosen
  have tidy := kept.tidy entry.1 entry.2 ((row_exact kept.keyed).mp (List.mem_of_find?_eq_some found))
  have unmarked : entry.2.remittanceId = none := tidy_unmarked tidy (by rw [chosen.1.2]; simp)
  exact ⟨⟨by simp [rowOf,unmarked],tidy.positive⟩,by simp [rowOf]⟩
theorem pending_rows (kept : Kept g) (input : RemittanceInput) :
    Table.Keyed (pendingRows input g.receivables) ∧ ∀ entry ∈ pendingRows input g.receivables,g.receivables.row entry.1 = some entry.2 := by
  constructor
  · exact ((List.mergeSort_perm _ _).map _).nodup_iff.mpr (select_keyed kept.keyed _)
  · intro entry member
    exact (select_row kept.keyed (List.mem_mergeSort.mp member)).1

theorem take_open {tx : Settling} {entry : Nat × Receivable} (opened : Open who g tx) (present : (g.receivables.row entry.1).isSome = true)
    (unsettled : ∀ row ∈ g.receivables.row entry.1,row.status ≠ .settled) :
    Open who {g with locks:=(entry.1,who) :: g.locks} (tx.take entry) := by
  refine ⟨opened.issued,opened.unbooked,opened.unmarked,fun other member => ?_,fun other member => ?_⟩
  · obtain old | new := List.mem_append.mp member
    · exact .tail _ (opened.locked other old)
    · rw [List.mem_singleton] at new
      subst new
      exact .head _
  · obtain old | new := List.mem_append.mp member
    · exact opened.there other old
    · rw [List.mem_singleton] at new
      subst new
      obtain ⟨row,here⟩ := Option.isSome_iff_exists.mp present
      exact ⟨row,here,unsettled row here⟩

-- What a statement that succeeds does to the books, and where it leaves its request.
structure Goes (who : Nat) (g : Books) (current : Option Nat) (after : Books × Clerk) : Prop where
  effect : ∃ g',Effect who current g g' ∧ (after.1 = g' ∨ after.1 = g'.release who)
  stands : At who after.1 after.2
theorem goes_keeps {current : Option Nat} {clerk : Clerk} (stands : At who g clerk) : Goes who g current (g,clerk) :=
  ⟨⟨g,.keeps,.inl rfl⟩,stands⟩

theorem settling_goes {tx : Settling} (stands : At who g (.settling tx))
    (unsettled : ∀ id ∈ (Clerk.settling tx).saves who g,∀ row ∈ g.receivables.row id,row.status ≠ .settled) :
    Goes who g (Clerk.settling tx).remittanceId ((Clerk.settling tx).go integrations who g) := by
  obtain ⟨progress,opened,present⟩ := stands
  simp only [Clerk.go]
  split
  · rename_i stopped
    exact goes_keeps ⟨progress,opened,stopped⟩
  · rename_i entry found
    split
    · rename_i free
      have saves : entry.1 ∈ (Clerk.settling tx).saves who g := by simp [Clerk.saves,found,free]
      obtain ⟨rest,-⟩ := next_rest found
      have inRest : entry ∈ tx.rest := by rw [rest]; exact List.mem_cons_self
      refine ⟨⟨_,.locks free,.inl rfl⟩,take_progress progress found,take_open opened (present entry inRest) (unsettled entry.1 saves),?_⟩
      intro other member
      exact present other (List.mem_of_mem_tail member)
    · exact goes_keeps ⟨progress,opened,present⟩
theorem saving_goes {write : ReceivableWrite} (stands : At who g (.saving write))
    (unsettled : ∀ id ∈ (Clerk.saving write).saves who g,∀ row ∈ g.receivables.row id,row.status ≠ .settled) :
    Goes who g none ((Clerk.saving write).go integrations who g) := by
  cases write with
  | save id row =>
    obtain ⟨tidy,still⟩ := stands
    simp only [Clerk.go]
    split
    · rename_i free
      have saves : id ∈ (Clerk.saving (.save id row)).saves who g := by simp [Clerk.saves,free]
      exact ⟨⟨_,.saves free (unsettled id saves) tidy still,.inl rfl⟩,trivial⟩
    · exact goes_keeps ⟨tidy,still⟩
  | insert row =>
    obtain ⟨tidy,still⟩ := stands
    simp only [Clerk.go]
    split
    · exact goes_keeps trivial
    · exact ⟨⟨_,.inserts tidy still,.inl rfl⟩,trivial⟩
theorem clerk_goes (integrations : List Nat) (kept : Kept g) {clerk : Clerk} (stands : At who g clerk)
    (unsettled : ∀ id ∈ clerk.saves who g,∀ row ∈ g.receivables.row id,row.status ≠ .settled) :
    Goes who g clerk.remittanceId (clerk.go integrations who g) := by
  have proposes : ∀ write : Option ReceivableWrite,(∀ row,write = some row → Tidy (rowOf row) ∧ (rowOf row).status ≠ .settled) →
      Goes who g none (proposed g write) := by
    intro write tidy
    cases write with
    | none => exact goes_keeps trivial
    | some write =>
      refine goes_keeps ?_
      cases write <;> exact tidy _ rfl
  cases clerk with
  | remitting input =>
    simp only [Clerk.go]
    split
    · exact goes_keeps trivial
    · rename_i paid
      split
      · exact goes_keeps (Int.not_le.mp (by simpa using paid))
      · exact goes_keeps trivial
  | finding input =>
    obtain ⟨keyed,rows⟩ := pending_rows kept input
    exact goes_keeps ⟨stands,keyed,fun entry member => (kept.tidy _ _ (rows entry member)).positive,fun entry member => by rw [rows entry member]; rfl⟩
  | opening input pending =>
    obtain ⟨paid,keyed,positive,present⟩ := stands
    refine ⟨⟨_,.draws,.inl rfl⟩,start_progress paid keyed positive _ _,?_,present⟩
    exact ⟨Nat.lt_succ_self _,fun entry booked => Nat.ne_of_lt (kept.booked entry booked),fun id marked => Nat.lt_irrefl _ (kept.issued id _ marked),
      fun entry member => (by cases member),fun entry member => (by cases member)⟩
  | settling tx => exact settling_goes stands unsettled
  | counting tx => exact goes_keeps stands
  | committing tx =>
    obtain ⟨progress,opened,stopped⟩ := stands
    refine ⟨⟨_,.commits rfl progress opened,.inr rfl⟩,progress,stopped,rfl,fun entry member => ?_⟩
    have marked := commit_mark progress opened entry.1
    rw [if_pos (List.mem_map.mpr ⟨entry,member,rfl⟩)] at marked
    exact marked
  | recording integrationId drive amount => exact proposes _ fun write recorded => record_tidy recorded
  | cancelling integrationId orderId => exact proposes _ fun write cancelled => cancel_tidy kept cancelled
  | saving write => exact saving_goes stands unsettled
  | _ => exact goes_keeps stands

end Steps

section Runs
variable {integrations : List Nat} {m : Machine Books Clerk}

-- No two requests have one remittance.
def remittanceAt (m : Machine Books Clerk) (who : Nat) : Option Nat := m.workers[who]?.bind Clerk.remittanceId
structure Distinct (m : Machine Books Clerk) : Prop where
  apart : ∀ a b remittanceId,remittanceAt m a = some remittanceId → remittanceAt m b = some remittanceId → a = b
  issued : ∀ who remittanceId,remittanceAt m who = some remittanceId → remittanceId < m.shared.nextRemittanceId

theorem next_remittance (integrations : List Nat) (who : Nat) (fate : Fate) (g : Books) (clerk : Clerk) :
    ((nextStatement integrations who fate g clerk).2.remittanceId = none ∨
      (nextStatement integrations who fate g clerk).2.remittanceId = clerk.remittanceId ∨
      (nextStatement integrations who fate g clerk).2.remittanceId = some g.nextRemittanceId ∧
        (nextStatement integrations who fate g clerk).1.nextRemittanceId = g.nextRemittanceId+1) ∧
    g.nextRemittanceId ≤ (nextStatement integrations who fate g clerk).1.nextRemittanceId := by
  have goes : ((clerk.go integrations who g).2.remittanceId = none ∨ (clerk.go integrations who g).2.remittanceId = clerk.remittanceId ∨
      (clerk.go integrations who g).2.remittanceId = some g.nextRemittanceId ∧
        (clerk.go integrations who g).1.nextRemittanceId = g.nextRemittanceId+1) ∧
      g.nextRemittanceId ≤ (clerk.go integrations who g).1.nextRemittanceId := by
    have proposes : ∀ write : Option ReceivableWrite,(proposed g write).2.remittanceId = none ∧ (proposed g write).1 = g := by
      intro write
      cases write <;> exact ⟨rfl,rfl⟩
    cases clerk with
    | remitting input =>
      simp only [Clerk.go]
      split
      · exact ⟨.inl rfl,Nat.le_refl _⟩
      · split
        · exact ⟨.inl rfl,Nat.le_refl _⟩
        · exact ⟨.inl rfl,Nat.le_refl _⟩
    | opening input pending => exact ⟨.inr (.inr ⟨rfl,rfl⟩),Nat.le_succ _⟩
    | settling tx =>
      simp only [Clerk.go]
      split
      · exact ⟨.inr (.inl rfl),Nat.le_refl _⟩
      · split
        · exact ⟨.inr (.inl rfl),Nat.le_refl _⟩
        · exact ⟨.inr (.inl rfl),Nat.le_refl _⟩
    | recording integrationId drive amount =>
      obtain ⟨none,same⟩ := proposes (recordProviderReceivable g.now integrationId drive amount g.receivables)
      exact ⟨.inl none,Nat.le_of_eq (congrArg Books.nextRemittanceId same).symm⟩
    | cancelling integrationId orderId =>
      obtain ⟨none,same⟩ := proposes (cancelProviderReceivable integrationId orderId g.receivables)
      exact ⟨.inl none,Nat.le_of_eq (congrArg Books.nextRemittanceId same).symm⟩
    | saving write =>
      cases write with
      | save id row => simp only [Clerk.go]; split <;> exact ⟨.inl rfl,Nat.le_refl _⟩
      | insert row => simp only [Clerk.go]; split <;> exact ⟨.inl rfl,Nat.le_refl _⟩
    | _ => exact ⟨.inr (.inl rfl),Nat.le_refl _⟩
  unfold nextStatement
  split
  · exact ⟨.inr (.inl rfl),Nat.le_refl _⟩
  · cases fate with
    | goes => exact goes
    | fails => exact ⟨.inl rfl,Nat.le_refl _⟩
    | lost => exact ⟨.inl rfl,goes.2⟩
    | dies => exact ⟨.inl rfl,Nat.le_refl _⟩
theorem advance_distinct (distinct : Distinct m) (turn : BooksTurn) : Distinct ((receivableBooks integrations).advance m turn) := by
  cases turn with
  | arrive request =>
    have same : ∀ who remittanceId,remittanceAt ((receivableBooks integrations).advance m (.arrive request)) who = some remittanceId →
        remittanceAt m who = some remittanceId := by
      intro who remittanceId here
      unfold remittanceAt at here ⊢
      rw [look_arrive] at here
      split at here
      · cases request <;> cases here
      · exact here
    exact ⟨fun a b remittanceId left right => distinct.apart a b remittanceId (same a _ left) (same b _ right),
      fun who remittanceId here => distinct.issued who remittanceId (same who _ here)⟩
  | world ms => exact ⟨distinct.apart,distinct.issued⟩
  | step who fate =>
    cases here : m.workers[who]? with
    | none => rw [idle_step here]; exact distinct
    | some clerk =>
      obtain ⟨next,grows⟩ := next_remittance integrations who fate m.shared clerk
      have mine : remittanceAt m who = clerk.remittanceId := by simp only [remittanceAt,here,Option.bind_some]
      have after : ∀ other,remittanceAt ((receivableBooks integrations).advance m (.step who fate)) other =
          if other = who then (nextStatement integrations who fate m.shared clerk).2.remittanceId else remittanceAt m other := by
        intro other
        unfold remittanceAt
        rw [look_step here]
        split
        · rfl
        · rfl
      -- whoever has a remittance had it before or has just drawn a new one
      have known : ∀ other remittanceId,remittanceAt ((receivableBooks integrations).advance m (.step who fate)) other = some remittanceId →
          remittanceAt m other = some remittanceId ∨ other = who ∧ remittanceId = m.shared.nextRemittanceId ∧
            (nextStatement integrations who fate m.shared clerk).1.nextRemittanceId = m.shared.nextRemittanceId+1 := by
        intro other remittanceId there
        rw [after] at there
        split at there
        · rename_i same
          obtain none | old | ⟨new,drawn⟩ := next
          · rw [none] at there; cases there
          · rw [old] at there; exact .inl (same ▸ mine.trans there)
          · rw [new] at there; cases there; exact .inr ⟨same,rfl,drawn⟩
        · exact .inl there
      have fresh : ∀ other,remittanceAt m other ≠ some m.shared.nextRemittanceId :=
        fun other there => Nat.lt_irrefl _ (distinct.issued other _ there)
      refine ⟨fun a b remittanceId left right => ?_,fun other remittanceId there => ?_⟩
      · obtain oldA | ⟨isA,new,-⟩ := known a remittanceId left
        · obtain oldB | ⟨-,new,-⟩ := known b remittanceId right
          · exact distinct.apart a b remittanceId oldA oldB
          · exact absurd (new ▸ oldA) (fresh a)
        · obtain oldB | ⟨isB,-,-⟩ := known b remittanceId right
          · exact absurd (new ▸ oldB) (fresh b)
          · exact isA.trans isB.symm
      · rw [shared_step here]
        obtain old | ⟨-,rfl,drawn⟩ := known other remittanceId there
        · exact Nat.lt_of_lt_of_le (distinct.issued other remittanceId old) grows
        · exact Nat.lt_of_lt_of_eq (Nat.lt_succ_self _) drawn.symm

-- What every request relies on, it keeps.
theorem clerk_next (integrations : List Nat) (fate : Fate) {who : Nat} {g : Books} {clerk : Clerk} (kept : Kept g) (stands : At who g clerk)
    (unsettled : ∀ id ∈ clerk.saves who g,∀ row ∈ g.receivables.row id,row.status ≠ .settled) :
    Goes who g clerk.remittanceId (nextStatement integrations who fate g clerk) := by
  obtain ⟨⟨g',effect,reached⟩,after⟩ := clerk_goes integrations kept stands unsettled
  unfold nextStatement
  split
  · exact goes_keeps stands
  · cases fate with
    | goes => exact ⟨⟨g',effect,reached⟩,after⟩
    | fails => exact ⟨⟨g,.keeps,.inr rfl⟩,trivial⟩
    | lost =>
      refine ⟨⟨g',effect,.inr ?_⟩,trivial⟩
      obtain same | released := reached
      · rw [same]
      · simp [released,Books.release,Locks.release]
    | dies => exact ⟨⟨g,.keeps,.inr rfl⟩,trivial⟩

def Sound (m : Machine Books Clerk) (turn : BooksTurn) : Prop := Unsettled m turn ∧ Distinct m
theorem books_keep (integrations : List Nat) : (receivableBooks integrations).Keeps Sound (fun _ g => Kept g) At where
  arrive m request holds met := ⟨holds.1,by cases request <;> trivial⟩
  own m who fate clerk holds met here := by
    have unsettled : ∀ id ∈ clerk.saves who m.shared,∀ row ∈ m.shared.receivables.row id,row.status ≠ .settled := fun id saved =>
      met.1 id (by simp only [here,Option.bind_some]; exact saved)
    obtain ⟨⟨g',effect,reached⟩,after⟩ := clerk_next integrations fate holds.1 (holds.2 who clerk here) unsettled
    have kept := effect_kept holds.1 effect
    refine ⟨?_,after⟩
    obtain same | released := reached
    · exact same ▸ kept
    · exact released ▸ release_kept kept who
  others m who fate clerk other idle holds met here apart there := by
    have unsettled : ∀ id ∈ clerk.saves who m.shared,∀ row ∈ m.shared.receivables.row id,row.status ≠ .settled := fun id saved =>
      met.1 id (by simp only [here,Option.bind_some]; exact saved)
    obtain ⟨⟨g',effect,reached⟩,-⟩ := clerk_next integrations fate holds.1 (holds.2 who clerk here) unsettled
    have distinct : ∀ remittanceId,clerk.remittanceId = some remittanceId → idle.remittanceId ≠ some remittanceId := by
      intro remittanceId mine yours
      have left : remittanceAt m who = some remittanceId := by simp only [remittanceAt,here,Option.bind_some,mine]
      have right : remittanceAt m other = some remittanceId := by simp only [remittanceAt,there,Option.bind_some,yours]
      exact apart (met.2.apart other who remittanceId right left)
    have stands := at_others holds.1 effect apart distinct (holds.2 other idle there)
    obtain same | released := reached
    · exact same ▸ stands
    · exact released ▸ at_release apart stands
  world m ms holds met := by
    refine ⟨⟨holds.1.keyed,holds.1.below,holds.1.tidy,holds.1.exclusive,holds.1.booked,holds.1.issued,holds.1.counted⟩,fun who clerk here => ?_⟩
    have stands := holds.2 who clerk here
    have same : ∀ {tx : Settling},Open who m.shared tx → Open who {m.shared with now:=m.shared.now+ms} tx :=
      fun opened => ⟨opened.issued,opened.unbooked,opened.unmarked,opened.locked,opened.there⟩
    cases clerk with
    | settling tx => exact ⟨stands.1,same stands.2.1,stands.2.2⟩
    | counting tx => exact ⟨stands.1,same stands.2.1,stands.2.2⟩
    | committing tx => exact ⟨stands.1,same stands.2.1,stands.2.2⟩
    | saving write => cases write <;> exact stands
    | finding _ | opening _ _ | remitted _ _ => exact stands
    | _ => trivial

end Runs

end Elchi.Remittances

import Elchi.SyncQueue
namespace Elchi.Syncing.Recovery
open RowLock hiding Machine Turn
open Interleaving

-- The attempts of an item since it was last put back by hand.
def tally (id : Nat) (tries : Nat) : Event → Nat
  | .attempted other => if other = id then tries+1 else tries
  | .putBack other => if other = id then 0 else tries
  | .accepted _ _ => tries
def tries (g : Board) (id : Nat) : Nat := g.trail.foldl (tally id) 0
-- The attempts a pending item gets while every request fails.
def attemptsLeft (item : SyncItem) : Nat := max 1 (item.maxAttempts - item.attempts)
theorem retried_left (now : Nat) (message : String) (item : SyncItem) :
    (item.begun.retried now message).status = .pending ∧ attemptsLeft item = attemptsLeft (item.begun.retried now message) + 1 ∨
    (item.begun.retried now message).status = .permanentlyFailed ∧ attemptsLeft item = 1 := by
  by_cases more : item.attempts+1 < item.maxAttempts
  · refine .inl ?_
    simp only [SyncItem.retried,SyncItem.begun,more,if_true,attemptsLeft,true_and]
    omega
  · refine .inr ?_
    simp only [SyncItem.retried,SyncItem.begun,more,if_false,attemptsLeft,true_and]
    omega

-- Without a processor no item is left 'processing'; no item is attempted more often than it may be;
-- and a pending one, put back by hand or not, has the rest of its attempts before it.
structure Recoverable (g : Board) : Prop where
  reachable : g.lock = none → ∀ id row,g.items.row id = some row → row.status ≠ .processing
  bounded : ∀ id row,g.items.row id = some row → tries g id ≤ row.maxAttempts
  full : ∀ id row,g.items.row id = some row → row.status = .pending → tries g id + attemptsLeft row = row.maxAttempts

-- A processor that has marked an item is not stopped before it has saved what came of it, neither by
-- its process nor by an error that nothing catches; and no item is put back by hand.
def survives (g : Board) (fate : Fate) : Runner → Prop
  | .resetting (_ :: _) _ => fate.writes = false
  | .working _ id _ stage => match stage with
    | .starting => fate.writes = true → fate.throws = false
    | .loading => fate = .goes
    | .abandoning | .failing => ∀ row ∈ g.items.row id,row.status = .processing → fate.writes = true
    | .calling | .completing => fate ≠ .dies
    | .crediting | .recording | .logging => True
  | _ => True
def Survives (m : Machine Board Runner) : SyncTurn → Prop
  | .step who fate => ∀ runner ∈ m.workers[who]?,survives m.shared fate runner
  | .arrive _ | .world _ => True

def Idle (g : Board) : Prop := ∀ id row,g.items.row id = some row → row.status ≠ .processing
structure Counted (tried : Nat) (row : SyncItem) : Prop where
  attempts : row.attempts = tried
  limit : row.maxAttempts = 4
  most : row.attempts ≤ 4
  waits : row.status = .pending → row.attempts < 4
  begun : row.status ≠ .pending → 0 < row.attempts
structure Sane (g : Board) : Prop where
  keyed : g.items.Keyed
  below : ∀ id row,g.items.row id = some row → id < g.nextItemId
  counted : ∀ id row,g.items.row id = some row → Counted (tries g id) row
  fresh : ∀ id,g.nextItemId ≤ id → tries g id = 0
  free : g.lock = none → Idle g

theorem sane_recoverable (sane : Sane g) : Recoverable g where
  reachable free id row here := sane.free free id row here
  bounded id row here := by
    obtain ⟨attempts,limit,most,-,-⟩ := sane.counted id row here
    rw [← attempts,limit]
    exact most
  full id row here pending := by
    obtain ⟨attempts,limit,-,waits,-⟩ := sane.counted id row here
    have fewer := waits pending
    unfold attemptsLeft
    omega

-- Whether a request holds the lock where it stands, and what it relies on there.
def locked : Runner → Bool
  | .picking _ | .unlocking _ | .working _ _ _ _ => true
  | _ => false
def Handles (g : Board) (id : Nat) (item : SyncItem) (stage : Stage) : Prop :=
  (∀ other row,g.items.row other = some row → row.status = .processing → other = id) ∧ Counted (tries g id) item ∧
  ∃ row,g.items.row id = some row ∧ match stage with
    | .starting => row = item ∧ item.status = .pending
    | .loading | .calling => row.status = .processing ∧ item.status = .processing
    | .abandoning => row.status = .processing ∧ item.status = .failed
    | .completing => row.status = .processing ∧ item.status = .completed
    | .crediting | .recording => row.status ≠ .processing ∧ item.status = .completed
    | .failing => item.status ≠ .processing
    | .logging => row.status ≠ .processing
def Needs (g : Board) : Runner → Prop
  | .inserting item => Counted 0 item
  | .resetting rows _ => ∀ entry ∈ rows,0 < entry.2.attempts ∧ entry.2.maxAttempts = 4 ∧ (g.items.row entry.1).isSome
  | .picking _ | .unlocking _ => Idle g
  | .working _ id item stage => Handles g id item stage
  | _ => True
def Works (who : Nat) (g : Board) (runner : Runner) : Prop := (g.lock = some who ↔ locked runner = true) ∧ Needs g runner

-- What a statement does to the board while items are not put back.
inductive Mends (who : Nat) (g : Board) : Board → Prop where
  | keeps : Mends who g g
  | locks (free : g.lock = none) : Mends who g {g with lock:=some who}
  | inserts {item : SyncItem} (new : Counted 0 item) : Mends who g (g.insert item)
  | begins {id : Nat} {row : SyncItem} (mine : g.lock = some who) (stored : g.items.row id = some row) (pending : row.status = .pending) :
      Mends who g ((g.save id row.begun).note (.attempted id))
  | saves {id : Nat} {row item : SyncItem} (mine : g.lock = some who) (stored : g.items.row id = some row) (counted : Counted (tries g id) item) :
      Mends who g (g.save id item)
  | accepts (id : Nat) (item : SyncItem) (mine : g.lock = some who) : Mends who g (g.note (.accepted id item))

section Steps
variable {env : Env} {g g' : Board} {who other id : Nat} {row item : SyncItem}

theorem tries_note (g : Board) (event : Event) (id : Nat) : tries (g.note event) id = tally id (tries g id) event := by
  simp [tries,Board.note,List.foldl_append]
theorem counted_new (new : Counted 0 item) : item.status = .pending := by
  by_contra other
  exact absurd (new.begun other) (by rw [new.attempts]; exact Nat.lt_irrefl 0)
theorem counted_begun (counted : Counted tried row) (pending : row.status = .pending) : Counted (tried+1) row.begun where
  attempts := congrArg (· + 1) counted.attempts
  limit := counted.limit
  most := counted.waits pending
  waits := nofun
  begun _ := Nat.succ_pos _
theorem counted_failed (counted : Counted tried item) (begun : item.status ≠ .pending) (error : String) : Counted tried (item.abandoned error) :=
  ⟨counted.attempts,counted.limit,counted.most,nofun,fun _ => counted.begun begun⟩
theorem counted_completed (counted : Counted tried item) (begun : item.status ≠ .pending) : Counted tried item.completed :=
  ⟨counted.attempts,counted.limit,counted.most,nofun,fun _ => counted.begun begun⟩
theorem counted_retried (counted : Counted tried item) (begun : item.status ≠ .pending) (now : Nat) (message : String) :
    Counted tried (item.retried now message) ∧ (item.retried now message).status ≠ .processing := by
  unfold SyncItem.retried
  split
  · rename_i fewer
    rw [counted.limit] at fewer
    exact ⟨⟨counted.attempts,counted.limit,counted.most,fun _ => fewer,fun _ => counted.begun begun⟩,nofun⟩
  · exact ⟨⟨counted.attempts,counted.limit,counted.most,nofun,fun _ => counted.begun begun⟩,nofun⟩

theorem mends_sane (sane : Sane g) (mends : Mends who g g') : Sane g' := by
  cases mends with
  | keeps => exact sane
  | locks _ => exact ⟨sane.keyed,sane.below,sane.counted,sane.fresh,nofun⟩
  | inserts new =>
    rename_i item
    refine ⟨put_keyed sane.keyed _ _,fun other stored there => ?_,fun other stored there => ?_,fun other later => sane.fresh other (Nat.le_of_succ_le later),
      fun free other stored there => ?_⟩
    · obtain ⟨rfl,-⟩ | old := inserted_row there
      · exact Nat.lt_succ_self _
      · exact Nat.lt_succ_of_lt (sane.below other stored old)
    · obtain ⟨rfl,rfl⟩ | old := inserted_row there
      · have none : tries (g.insert item) g.nextItemId = 0 := sane.fresh _ (Nat.le_refl _)
        rw [none]
        exact ⟨new.attempts,new.limit,new.most,new.waits,new.begun⟩
      · exact sane.counted other stored old
    · obtain ⟨rfl,rfl⟩ | old := inserted_row there
      · intro processing
        cases processing.symm.trans (show item.status = .pending from counted_new new)
      · exact sane.free free other stored old
  | begins mine stored pending =>
    rename_i id row
    refine ⟨apply_keyed _ sane.keyed,fun other later there => ?_,fun other later there => ?_,fun other later => ?_,fun free => ?_⟩
    · obtain ⟨rfl,-⟩ | ⟨-,old⟩ := saved_row stored there
      · exact sane.below id row stored
      · exact sane.below other later old
    · rw [tries_note]
      obtain ⟨rfl,rfl⟩ | ⟨apart,old⟩ := saved_row stored there
      · simp only [tally,if_true]
        exact counted_begun (sane.counted id row stored) pending
      · simp only [tally,apart,if_false]
        exact sane.counted other later old
    · have apart : id ≠ other := fun same => Nat.lt_irrefl _ (Nat.lt_of_lt_of_le (sane.below id row stored) (same ▸ later))
      rw [tries_note]
      simp only [tally,apart,if_false]
      exact sane.fresh other later
    · cases mine.symm.trans free
  | saves mine stored counted =>
    rename_i id row item
    refine ⟨apply_keyed _ sane.keyed,fun other later there => ?_,fun other later there => ?_,sane.fresh,fun free => ?_⟩
    · obtain ⟨rfl,-⟩ | ⟨-,old⟩ := saved_row stored there
      · exact sane.below id row stored
      · exact sane.below other later old
    · obtain ⟨rfl,rfl⟩ | ⟨-,old⟩ := saved_row stored there
      · exact counted
      · exact sane.counted other later old
    · cases mine.symm.trans free
  | accepts id item mine =>
    have same : ∀ other,tries (g.note (.accepted id item)) other = tries g other := fun other => tries_note g _ other
    exact ⟨sane.keyed,sane.below,fun other row there => by rw [same]; exact sane.counted other row there,
      fun other later => by rw [same]; exact sane.fresh other later,fun free => by cases mine.symm.trans free⟩

-- One request at work, the others where they stand.
theorem mends_lock (mends : Mends who g g') (apart : other ≠ who) : g'.lock = some other ↔ g.lock = some other := by
  cases mends with
  | locks free =>
    refine ⟨fun mine => absurd (Option.some_inj.mp mine).symm apart,fun held => ?_⟩
    cases free.symm.trans held
  | _ => exact Iff.rfl
theorem mends_stored (mends : Mends who g g') {key : Nat} (here : (g.items.row key).isSome = true) : (g'.items.row key).isSome = true := by
  have saved : ∀ id item,((g.save id item).items.row key).isSome = true := fun id item => by
    rw [save_row]
    split
    · rw [Option.isSome_map]
      exact here
    · exact here
  cases mends with
  | keeps => exact here
  | locks _ => exact here
  | inserts new =>
    rw [insert_row]
    split
    · rfl
    · exact here
  | begins _ _ _ => exact saved _ _
  | saves _ _ _ => exact saved _ _
  | accepts _ _ _ => exact here
theorem mends_outside (sane : Sane g) (mends : Mends who g g') (notMine : g.lock ≠ some who) :
    (∀ id,tries g' id = tries g id) ∧ (∀ id row,g.items.row id = some row → g'.items.row id = some row) ∧
    ∀ id row,g'.items.row id = some row → row.status = .processing → g.items.row id = some row := by
  cases mends with
  | keeps => exact ⟨fun _ => rfl,fun _ _ here => here,fun _ _ here _ => here⟩
  | locks _ => exact ⟨fun _ => rfl,fun _ _ here => here,fun _ _ here _ => here⟩
  | inserts new =>
    refine ⟨fun _ => rfl,fun id row here => ?_,fun id row there processing => ?_⟩
    · have old : g.nextItemId ≠ id := fun next => Nat.lt_irrefl _ (next ▸ sane.below id row here)
      rw [insert_row,if_neg old]
      exact here
    · obtain ⟨rfl,rfl⟩ | old := inserted_row there
      · cases (counted_new new).symm.trans processing
      · exact old
  | begins mine _ _ => exact absurd mine notMine
  | saves mine _ _ => exact absurd mine notMine
  | accepts _ _ mine => exact absurd mine notMine
theorem works_others (sane : Sane g) (mends : Mends who g g') (apart : other ≠ who) {idle : Runner} (works : Works other g idle) :
    Works other g' idle := by
  obtain ⟨holder,needs⟩ := works
  refine ⟨(mends_lock mends apart).trans holder,?_⟩
  have outside : locked idle = true → g.lock ≠ some who := fun holds mine =>
    apart (Option.some_inj.mp ((holder.mpr holds).symm.trans mine))
  cases idle with
  | inserting item => exact needs
  | resetting rows round =>
    intro entry member
    obtain ⟨begun,limit,here⟩ := needs entry member
    exact ⟨begun,limit,mends_stored mends here⟩
  | picking _ | unlocking _ =>
    obtain ⟨-,-,old⟩ := mends_outside sane mends (outside rfl)
    exact fun id row there processing => needs id row (old id row there processing) processing
  | working round id item stage =>
    obtain ⟨same,kept,old⟩ := mends_outside sane mends (outside rfl)
    obtain ⟨alone,counted,row,here,rest⟩ := needs
    refine ⟨fun other row there processing => alone other row (old other row there processing) processing,?_,row,kept id row here,rest⟩
    rw [same]
    exact counted
  | _ => trivial

theorem unlock_sane (sane : Sane g) (idle : g.lock = some who → Idle g) : Sane (g.unlock who) := by
  unfold Board.unlock
  split
  · rename_i mine
    exact ⟨sane.keyed,sane.below,sane.counted,sane.fresh,fun _ => idle mine⟩
  · exact sane
theorem unlock_works (apart : other ≠ who) {idle : Runner} (works : Works other g idle) : Works other (g.unlock who) idle := by
  unfold Board.unlock
  split
  · rename_i mine
    refine ⟨⟨nofun,fun holds => ?_⟩,works.2⟩
    exact absurd (Option.some_inj.mp ((works.1.mpr holds).symm.trans mine)) apart
  · exact works
theorem unlock_own (g : Board) (who : Nat) : (g.unlock who).lock ≠ some who := by
  unfold Board.unlock
  split
  · exact nofun
  · rename_i other
    exact other

-- A statement mends the board, and may end by giving up the lock.
def Leaves (who : Nat) (g after : Board) : Prop :=
  ∃ g',Mends who g g' ∧ (after = g' ∨ after = g'.unlock who ∧ (g'.lock = some who → Idle g'))
theorem leaves_same (who : Nat) (g : Board) : Leaves who g g := ⟨g,.keeps,.inl rfl⟩
theorem leaves_mends (mends : Mends who g g') : Leaves who g g' := ⟨g',mends,.inl rfl⟩
theorem leaves_unlock (mends : Mends who g g') (idle : g'.lock = some who → Idle g') {last : Runner} (ended : locked last = false)
    (answered : Needs (g'.unlock who) last) : Leaves who g (g'.unlock who) ∧ Works who (g'.unlock who) last := by
  refine ⟨⟨g',mends,.inr ⟨rfl,idle⟩⟩,⟨fun mine => absurd mine (unlock_own g' who),fun holds => ?_⟩,answered⟩
  cases ended.symm.trans holds
theorem leaves_sane (sane : Sane g) (leaves : Leaves who g g') : Sane g' := by
  obtain ⟨middle,mends,same | ⟨same,idle⟩⟩ := leaves
  · exact same ▸ mends_sane sane mends
  · exact same ▸ unlock_sane (mends_sane sane mends) idle
theorem leaves_others (sane : Sane g) (leaves : Leaves who g g') (apart : other ≠ who) {idle : Runner} (works : Works other g idle) :
    Works other g' idle := by
  obtain ⟨middle,mends,same | ⟨same,-⟩⟩ := leaves
  · exact same ▸ works_others sane mends apart works
  · exact same ▸ unlock_works apart (works_others sane mends apart works)

theorem given_begun {integrationId : Option Nat} (given : gaveUp integrationId row = true) : row.status ≠ .pending := by
  intro pending
  simp [gaveUp,pending] at given

-- The work on a row.
theorem save_alone (alone : ∀ other row,g.items.row other = some row → row.status = .processing → other = id) (stored : g.items.row id = some row) :
    ∀ other row,(g.save id item).items.row other = some row → row.status = .processing → other = id := by
  intro other later there processing
  obtain ⟨rfl,-⟩ | ⟨-,old⟩ := saved_row stored there
  · rfl
  · exact alone other later old processing
theorem handled_idle (alone : ∀ other row,g.items.row other = some row → row.status = .processing → other = id) (stored : g.items.row id = some row)
    (ended : row.status ≠ .processing) : Idle g := by
  intro other later there processing
  obtain rfl := alone other later there processing
  cases stored.symm.trans there
  exact ended processing
theorem work_mends (mine : g.lock = some who) {round : Round} {stage : Stage} (handles : Handles g id item stage) :
    Mends who g (workOn env g round id item stage).1 ∧ Works who (workOn env g round id item stage).1 (workOn env g round id item stage).2 := by
  have held : g.lock = some who ↔ true = true := iff_of_true mine rfl
  obtain ⟨alone,counted,row,here,rest⟩ := handles
  cases stage with
  | starting =>
    obtain ⟨rfl,pending⟩ := rest
    refine ⟨.begins mine here pending,held,save_alone alone here,?_,row.begun,save_self here,rfl,rfl⟩
    simp only [workOn,tries_note,tally,if_true]
    exact counted_begun counted pending
  | loading =>
    obtain ⟨was,begun⟩ := rest
    have abandons : ∀ error,Works who g (.working round id (item.abandoned error) .abandoning) := fun error =>
      ⟨held,alone,counted_failed counted (by rw [begun]; exact nofun) error,row,here,was,rfl⟩
    simp only [workOn]
    split
    · exact ⟨.keeps,abandons _⟩
    · split
      · exact ⟨.keeps,abandons _⟩
      · exact ⟨.keeps,held,alone,counted,row,here,was,begun⟩
  | abandoning =>
    refine ⟨.saves mine here counted,held,save_alone alone here,counted,item,save_self here,?_⟩
    change item.status ≠ .processing
    rw [rest.2]
    exact nofun
  | calling =>
    refine ⟨.accepts id item mine,held,alone,?_,row,here,rest.1,rfl⟩
    simp only [workOn,tries_note,tally]
    exact counted_completed counted (by rw [rest.2]; exact nofun)
  | completing =>
    refine ⟨.saves mine here counted,held,save_alone alone here,counted,item,save_self here,?_,rest.2⟩
    rw [rest.2]
    exact nofun
  | crediting => exact ⟨.keeps,held,alone,counted,row,here,rest⟩
  | recording => exact ⟨.keeps,held,handled_idle alone here rest.1⟩
  | failing => exact ⟨.saves mine here counted,held,save_alone alone here,counted,item,save_self here,rest⟩
  | logging => exact ⟨.keeps,held,handled_idle alone here rest⟩

variable (env) in
theorem go_leaves (sane : Sane g) {runner : Runner} {fate : Fate} (works : Works who g runner) (writes : fate.writes = true)
    (survived : survives g fate runner) : Leaves who g (runner.go env who g).1 ∧ Works who (runner.go env who g).1 (runner.go env who g).2 := by
  obtain ⟨holder,needs⟩ := works
  cases runner with
  | enqueueing input =>
    simp only [Runner.go]
    split
    · exact ⟨leaves_same who g,holder,trivial⟩
    · split
      · exact ⟨leaves_same who g,holder,trivial⟩
      · exact ⟨leaves_same who g,holder,rfl,rfl,Nat.zero_le 4,fun _ => Nat.zero_lt_succ 3,fun begun => absurd rfl begun⟩
  | inserting item => exact ⟨leaves_mends (.inserts needs),holder,trivial⟩
  | finding queueId integrationId =>
    simp only [Runner.go]
    split
    · exact ⟨leaves_same who g,holder,trivial⟩
    · rename_i row found
      obtain ⟨here,given⟩ := Option.filter_eq_some_iff.mp found
      refine ⟨leaves_same who g,holder,fun entry single => ?_⟩
      rw [List.mem_singleton] at single
      subst single
      have counted := sane.counted queueId row here
      exact ⟨counted.begun (given_begun given),counted.limit,Option.isSome_iff_exists.mpr ⟨row,here⟩⟩
  | findingAll integrationId =>
    refine ⟨leaves_same who g,holder,fun entry member => ?_⟩
    obtain ⟨here,given⟩ := select_row sane.keyed (oldestFirst_mem (List.mem_of_mem_take member))
    have counted := sane.counted entry.1 entry.2 here
    exact ⟨counted.begun (given_begun given),counted.limit,Option.isSome_iff_exists.mpr ⟨entry.2,here⟩⟩
  | resetting rows round =>
    cases rows with
    | nil => exact ⟨leaves_same who g,holder,trivial⟩
    | cons first rest => cases writes.symm.trans survived
  | locking round =>
    simp only [Runner.go]
    split
    · rename_i unlocked
      have free := Option.isNone_iff_eq_none.mp unlocked
      exact ⟨leaves_mends (.locks free),iff_of_true rfl rfl,sane.free free⟩
    · exact ⟨leaves_same who g,holder,trivial⟩
  | picking round =>
    simp only [Runner.go]
    split
    · split
      · exact ⟨leaves_same who g,holder,needs⟩
      · rename_i id item rest listed
        obtain ⟨here,fits⟩ := select_row sane.keyed (oldestFirst_mem (listed ▸ List.mem_cons_self))
        have pending : item.status = .pending := by
          simp only [eligible,Bool.and_eq_true,beq_iff_eq] at fits
          exact fits.1.1
        refine ⟨leaves_same who g,holder,fun other row there processing => ?_,sane.counted id item here,item,here,rfl,pending⟩
        exact absurd processing (needs other row there)
    · exact ⟨leaves_same who g,holder,needs⟩
  | working round id item stage =>
    obtain ⟨mends,works⟩ := work_mends (holder.mpr rfl) needs
    exact ⟨leaves_mends mends,works⟩
  | unlocking round => exact leaves_unlock .keeps (fun _ => needs) rfl trivial
  | _ => exact ⟨leaves_same who g,holder,needs⟩

-- Where nothing is in hand, or only picked, giving up the lock leaves nothing 'processing'.
def resting : Runner → Bool
  | .working _ _ _ stage => stage == .starting
  | _ => true
theorem resting_idle {runner : Runner} (works : Works who g runner) (rests : resting runner = true) (mine : g.lock = some who) : Idle g := by
  obtain ⟨holder,needs⟩ := works
  cases runner with
  | picking _ | unlocking _ => exact needs
  | working round id item stage =>
    obtain rfl : stage = .starting := by simpa [resting] using rests
    obtain ⟨alone,-,row,here,rfl,pending⟩ := needs
    exact handled_idle alone here (by rw [pending]; exact nofun)
  | _ => cases holder.mp mine
theorem go_rests {runner : Runner} (outside : ∀ round id item stage,runner ≠ .working round id item stage) :
    resting (runner.go env who g).2 = true := by
  cases runner with
  | working round id item stage => exact absurd rfl (outside round id item stage)
  | enqueueing input =>
    simp only [Runner.go]
    split
    · rfl
    · split <;> rfl
  | finding queueId integrationId =>
    simp only [Runner.go]
    split <;> rfl
  | resetting rows round => cases rows <;> rfl
  | locking round =>
    simp only [Runner.go]
    split <;> rfl
  | picking round =>
    simp only [Runner.go]
    split
    · split <;> rfl
    · rfl
  | _ => rfl
theorem leaves_gives_up (leaves : Leaves who g g') (idle : g'.lock = some who → Idle g') {last : Runner} (ended : last = .failed ∨ last = .dead) :
    Leaves who g (g'.unlock who) ∧ Works who (g'.unlock who) last := by
  have answers : locked last = false ∧ ∀ board,Needs board last := by
    rcases ended with rfl | rfl
    · exact ⟨rfl,fun _ => trivial⟩
    · exact ⟨rfl,fun _ => trivial⟩
  obtain ⟨middle,mends,same | ⟨same,before⟩⟩ := leaves
  · subst same
    exact leaves_unlock mends idle answers.1 (answers.2 _)
  · subst same
    have again : (middle.unlock who).unlock who = middle.unlock who := by
      unfold Board.unlock
      by_cases mine : middle.lock = some who
      · simp [mine]
      · simp [mine]
    rw [again]
    exact leaves_unlock mends before answers.1 (answers.2 _)

-- What an error or the end of the process leaves.
theorem retried_works (mine : g.lock = some who) {round : Round} (alone : ∀ other row,g.items.row other = some row → row.status = .processing → other = id)
    (counted : Counted (tries g id) item) (begun : item.status ≠ .pending) (stored : g.items.row id = some row) (message : String) :
    Works who g (.working round id (item.retried g.now message) .failing) := by
  obtain ⟨again,ended⟩ := counted_retried counted begun g.now message
  exact ⟨iff_of_true mine rfl,alone,again,row,stored,ended⟩
variable (env) in
theorem working_threw (mine : g.lock = some who) {round : Round} {stage : Stage} (handles : Handles g id item stage) (message : String) (inside : stage.caught = true) :
    Works who g (.working round id (item.retried g.now message) .failing) ∧
    Works who (workOn env g round id item stage).1 (.working round id (item.retried (workOn env g round id item stage).1.now message) .failing) := by
  obtain ⟨alone,counted,row,here,rest⟩ := handles
  cases stage with
  | calling =>
    have begun : item.status ≠ .pending := by rw [rest.2]; exact nofun
    have same : tries (g.note (.accepted id item)) id = tries g id := tries_note g _ id
    exact ⟨retried_works mine alone counted begun here message,
      retried_works (g:=g.note (.accepted id item)) mine alone (same.symm ▸ counted) begun here message⟩
  | completing =>
    have begun : item.status ≠ .pending := by rw [rest.2]; exact nofun
    exact ⟨retried_works mine alone counted begun here message,
      retried_works (g:=g.save id item) mine (save_alone alone here) counted begun (save_self here) message⟩
  | crediting | recording =>
    have begun : item.status ≠ .pending := by rw [rest.2]; exact nofun
    exact ⟨retried_works mine alone counted begun here message,retried_works mine alone counted begun here message⟩
  | _ => cases inside
-- Outside the request and its bookkeeping an error ends the run.
theorem working_idle {round : Round} {stage : Stage} {fate : Fate} (handles : Handles g id item stage)
    (survived : survives g fate (.working round id item stage)) (silent : fate.writes = false) (ends : stage.caught = true → fate = .dies) : Idle g := by
  obtain ⟨alone,counted,row,here,rest⟩ := handles
  refine handled_idle alone here ?_
  cases stage with
  | starting =>
    rw [rest.1,rest.2]
    exact nofun
  | loading =>
    cases survived
    cases silent
  | abandoning => cases silent.symm.trans (survived row here rest.1)
  | failing => exact fun processing => by cases silent.symm.trans (survived row here processing)
  | calling | completing => exact absurd (ends rfl) survived
  | crediting | recording => exact rest.1
  | logging => exact rest
theorem working_lost {round : Round} {stage : Stage} {message : String} (handles : Handles g id item stage)
    (survived : survives g (.lost message) (.working round id item stage)) (outside : stage.caught = false) :
    Idle (workOn env g round id item stage).1 := by
  obtain ⟨alone,counted,row,here,rest⟩ := handles
  cases stage with
  | starting => cases survived rfl
  | loading => cases survived
  | abandoning =>
    refine handled_idle (save_alone alone here) (save_self here) ?_
    rw [rest.2]
    exact nofun
  | failing => exact handled_idle (save_alone alone here) (save_self here) rest
  | logging => exact handled_idle alone here rest
  | _ => cases outside
theorem working_leaves (sane : Sane g) {round : Round} {stage : Stage} {fate : Fate} (works : Works who g (.working round id item stage))
    (survived : survives g fate (.working round id item stage)) :
    Leaves who g (nextStatement env who fate g (.working round id item stage)).1 ∧
      Works who (nextStatement env who fate g (.working round id item stage)).1 (nextStatement env who fate g (.working round id item stage)).2 := by
  have mine : g.lock = some who := works.1.mpr rfl
  have handles : Handles g id item stage := works.2
  cases fate with
  | goes => exact go_leaves env sane works rfl survived
  | dies => exact leaves_gives_up (leaves_same who g) (fun _ => working_idle handles survived rfl fun _ => rfl) (.inr rfl)
  | fails message =>
    simp only [nextStatement,Runner.answered,Bool.false_eq_true,if_false,Runner.threw]
    split
    · rename_i inside
      exact ⟨leaves_same who g,(working_threw env mine handles message inside).1⟩
    · rename_i uncaught
      exact leaves_gives_up (leaves_same who g) (fun _ => working_idle handles survived rfl fun inside => absurd inside uncaught) (.inl rfl)
  | lost message =>
    have went := (go_leaves env sane works rfl survived).1
    simp only [nextStatement,Runner.answered,Bool.false_eq_true,if_false,Runner.threw]
    split
    · rename_i inside
      exact ⟨went,(working_threw env mine handles message inside).2⟩
    · rename_i uncaught
      exact leaves_gives_up went (fun _ => working_lost handles survived (Bool.eq_false_iff.mpr uncaught)) (.inl rfl)
theorem aside_leaves (sane : Sane g) {runner : Runner} {fate : Fate} (works : Works who g runner) (survived : survives g fate runner)
    (aside : ∀ round id item stage,runner ≠ .working round id item stage) (rests : resting runner = true) :
    Leaves who g (nextStatement env who fate g runner).1 ∧
      Works who (nextStatement env who fate g runner).1 (nextStatement env who fate g runner).2 := by
  have threw : ∀ message after,runner.threw who message after = (after.unlock who,.failed) := fun message after => by
    cases runner with
    | working round id item stage => exact absurd rfl (aside round id item stage)
    | _ => rfl
  have idle := resting_idle works rests
  unfold nextStatement
  split
  · exact ⟨leaves_same who g,works⟩
  · cases fate with
    | goes => exact go_leaves env sane works rfl survived
    | dies => exact leaves_gives_up (leaves_same who g) idle (.inr rfl)
    | fails message =>
      simp only [threw]
      exact leaves_gives_up (leaves_same who g) idle (.inl rfl)
    | lost message =>
      obtain ⟨went,standing⟩ := go_leaves env sane works rfl survived
      simp only [threw]
      exact leaves_gives_up went (resting_idle standing (go_rests aside)) (.inl rfl)
variable (env) in
theorem next_leaves (sane : Sane g) {runner : Runner} {fate : Fate} (works : Works who g runner) (survived : survives g fate runner) :
    Leaves who g (nextStatement env who fate g runner).1 ∧
      Works who (nextStatement env who fate g runner).1 (nextStatement env who fate g runner).2 := by
  cases runner with
  | working round id item stage => exact working_leaves sane works survived
  | _ => exact aside_leaves sane works survived (fun _ _ _ _ same => by cases same) rfl

-- And any statement the condition excludes loses the property at once.
theorem unlock_mine (mine : g.lock = some who) : (g.unlock who).lock = none := by
  unfold Board.unlock
  rw [if_pos mine]
theorem stuck (mine : g.lock = some who) (here : g.items.row id = some row) (processing : row.status = .processing) :
    ¬ Recoverable (g.unlock who) := fun recoverable =>
  recoverable.reachable (unlock_mine mine) id row (by rw [(unlock_items g who).1]; exact here) processing
theorem put_back_short (begun : 0 < item.attempts) (limit : item.maxAttempts = 4) (stored : g.items.row id = some row)
    (same : g'.items = (g.save id item.reset).items) (noted : g'.trail = g.trail ++ [.putBack id]) : ¬ Recoverable g' := by
  intro recoverable
  have here : g'.items.row id = some item.reset := by
    rw [same]
    exact save_self stored
  have none : tries g' id = 0 := by simp [tries,noted,tally,List.foldl_append]
  have full := recoverable.full id item.reset here rfl
  rw [none] at full
  simp only [attemptsLeft,SyncItem.reset,limit] at full
  omega
theorem next_breaks {runner : Runner} {fate : Fate} (works : Works who g runner) (broken : ¬ survives g fate runner) :
    ¬ Recoverable (nextStatement env who fate g runner).1 := by
  obtain ⟨holder,needs⟩ := works
  cases runner with
  | resetting rows round =>
    cases rows with
    | nil => exact absurd trivial broken
    | cons first rest =>
      obtain ⟨begun,limit,there⟩ := needs first List.mem_cons_self
      obtain ⟨row,stored⟩ := Option.isSome_iff_exists.mp there
      cases fate with
      | goes => exact put_back_short begun limit stored rfl rfl
      | lost message => exact put_back_short begun limit stored (unlock_items _ who).1 (unlock_items _ who).2.1
      | fails message => exact absurd rfl broken
      | dies => exact absurd rfl broken
  | working round id item stage =>
    have mine : g.lock = some who := holder.mpr rfl
    obtain ⟨-,-,row,here,rest⟩ := needs
    cases stage with
    | starting =>
      cases fate with
      | lost message => exact stuck (g:=(g.save id item.begun).note (.attempted id)) mine (save_self here) rfl
      | _ => exact absurd (fun _ => by first | rfl | contradiction) broken
    | loading =>
      cases fate with
      | goes => exact absurd rfl broken
      | fails message => exact stuck mine here rest.1
      | lost message =>
        have same : (workOn env g round id item .loading).1 = g := by
          simp only [workOn]
          split
          · rfl
          · split <;> rfl
        have ends : (nextStatement env who (.lost message) g (.working round id item .loading)).1 = g.unlock who := congrArg (Board.unlock · who) same
        rw [ends]
        exact stuck mine here rest.1
      | dies => exact stuck mine here rest.1
    | abandoning | failing =>
      obtain ⟨stored,there,processing,silent⟩ : ∃ stored,g.items.row id = some stored ∧ stored.status = .processing ∧ fate.writes ≠ true := by
        simpa [survives] using broken
      cases fate with
      | goes => exact absurd rfl silent
      | lost message => exact absurd rfl silent
      | fails message => exact stuck mine there processing
      | dies => exact stuck mine there processing
    | calling | completing =>
      obtain rfl : fate = .dies := by simpa [survives] using broken
      exact stuck mine here rest.1
    | crediting | recording | logging => exact absurd trivial broken
  | _ => exact absurd trivial broken

end Steps

theorem leaves_lock {g g' : Board} {who other : Nat} (leaves : Leaves who g g') (apart : other ≠ who) (held : g'.lock = some other) :
    g.lock = some other := by
  obtain ⟨middle,mends,same | ⟨same,-⟩⟩ := leaves
  · exact (mends_lock mends apart).mp (same ▸ held)
  · refine (mends_lock mends apart).mp ?_
    rw [same] at held
    unfold Board.unlock at held
    split at held
    · cases held
    · exact held
theorem recovery_keeps (env : Env) :
    (syncBoard env).Keeps Survives (fun count g => Sane g ∧ ∀ who,g.lock = some who → who < count) Works where
  arrive m request holds met := by
    obtain ⟨sane,inside⟩ := holds.1
    have outside : m.shared.lock ≠ some m.workers.length := fun mine => Nat.lt_irrefl _ (inside _ mine)
    refine ⟨⟨sane,fun who mine => Nat.lt_succ_of_lt (inside who mine)⟩,?_⟩
    cases request <;> exact ⟨iff_of_false outside nofun,trivial⟩
  own m who fate runner holds met here := by
    obtain ⟨leaves,works⟩ := next_leaves env holds.1.1 (holds.2 who runner here) (met runner here)
    refine ⟨⟨leaves_sane holds.1.1 leaves,fun other held => ?_⟩,works⟩
    by_cases same : other = who
    · rw [same]
      exact (List.getElem?_eq_some_iff.mp here).1
    · exact holds.1.2 other (leaves_lock leaves same held)
  others m who fate runner other idle holds met here apart there :=
    leaves_others holds.1.1 (next_leaves env holds.1.1 (holds.2 who runner here) (met runner here)).1 apart (holds.2 other idle there)
  world m ms holds met := by
    obtain ⟨⟨keyed,below,counted,fresh,free⟩,inside⟩ := holds.1
    refine ⟨⟨⟨keyed,below,counted,fresh,free⟩,inside⟩,fun who runner here => ?_⟩
    obtain ⟨holder,needs⟩ := holds.2 who runner here
    refine ⟨holder,?_⟩
    cases runner with
    | working round id item stage => cases stage <;> exact needs
    | _ => exact needs

-- From an empty queue, the runs that meet the condition are those in which the property holds in
-- every state.
theorem start_sane (now : Nat) : Sane (Board.start now) where
  keyed := List.nodup_nil
  below _ _ here := by cases here
  counted _ _ here := by cases here
  fresh _ _ := rfl
  free _ _ _ here := by cases here
theorem sync_recoverable (env : Env) (now : Nat) (turns : List SyncTurn) :
    Runs.Meets (syncBoard env).advance Survives ⟨Board.start now,[]⟩ turns ↔
      ∀ front,front <+: turns → Recoverable ((syncBoard env).run (Board.start now) front).shared := by
  have keeps := recovery_keeps env
  refine Runs.meets_exactly (Q:=fun m : Machine Board Runner => Recoverable m.shared) (fun _ _ holds met => advance_holds keeps holds met)
    (fun _ holds => sane_recoverable holds.1.1) (fun m turn holds unmet => ?_) (start_holds ⟨start_sane now,nofun⟩)
  cases turn with
  | arrive request => exact absurd trivial unmet
  | step who fate =>
    have stands : ∃ runner,m.workers[who]? = some runner ∧ ¬ survives m.shared fate runner := by
      simpa [Survives] using unmet
    obtain ⟨runner,here,broken⟩ := stands
    rw [shared_step here]
    exact next_breaks (holds.2 who runner here) broken
  | world ms => exact absurd trivial unmet

-- A process that dies after the mark leaves the item 'processing' without a processor. And after four
-- failed attempts a manual retry gives the item one attempt, not four.
def diesMarked : List SyncTurn := .arrive (.enqueue (changes .sold "sold")) :: each 0 5 ++ [.step 0 .dies]
def failsOnce (who : Nat) : List SyncTurn := each who 4 ++ [.step who (.fails "HTTP 503")] ++ each who 4
def retriedByHand : List SyncTurn :=
  .arrive (.enqueue (changes .sold "sold")) :: each 0 2 ++ failsOnce 0 ++
    [.world 60000,.arrive (.process 20 none)] ++ failsOnce 1 ++ [.world 300000,.arrive (.process 20 none)] ++ failsOnce 2 ++
    [.world 900000,.arrive (.process 20 none)] ++ failsOnce 3 ++ [.arrive (.retryOne 1 none)] ++ each 4 2
theorem marked_stuck_and_retry_short :
    (((syncBoard carrierEnv).run (Board.start 0) diesMarked).shared.lock = none ∧
      (((syncBoard carrierEnv).run (Board.start 0) diesMarked).shared.items.row 1).map (·.status) = some .processing ∧
      ¬ Recoverable ((syncBoard carrierEnv).run (Board.start 0) diesMarked).shared) ∧
    ((((syncBoard carrierEnv).run (Board.start 0) retriedByHand).shared.items.row 1).map fun row =>
        (row.status,row.retryCount,attemptsLeft row,row.maxAttempts)) = some (.pending,0,1,4) ∧
      tries ((syncBoard carrierEnv).run (Board.start 0) retriedByHand).shared 1 = 0 ∧
      ¬ Recoverable ((syncBoard carrierEnv).run (Board.start 0) retriedByHand).shared := by
  have dead : ((syncBoard carrierEnv).run (Board.start 0) diesMarked).shared.lock = none := by decide +kernel
  have marked : (((syncBoard carrierEnv).run (Board.start 0) diesMarked).shared.items.row 1).map (·.status) = some .processing := by decide +kernel
  have short : ((((syncBoard carrierEnv).run (Board.start 0) retriedByHand).shared.items.row 1).map fun row =>
      (row.status,row.retryCount,attemptsLeft row,row.maxAttempts)) = some (.pending,0,1,4) := by decide +kernel
  have none : tries ((syncBoard carrierEnv).run (Board.start 0) retriedByHand).shared 1 = 0 := by decide +kernel
  refine ⟨⟨dead,marked,fun recoverable => ?_⟩,short,none,fun recoverable => ?_⟩
  · obtain ⟨row,here,processing⟩ := Option.map_eq_some_iff.mp marked
    exact recoverable.reachable dead 1 row here processing
  · obtain ⟨row,here,figures⟩ := Option.map_eq_some_iff.mp short
    obtain ⟨pending,-,left,limit⟩ : row.status = .pending ∧ row.retryCount = 0 ∧ attemptsLeft row = 1 ∧ row.maxAttempts = 4 := by
      simpa only [Prod.mk.injEq] using figures
    have full := recoverable.full 1 row here pending
    rw [none,left,limit] at full
    exact absurd full (by decide)

end Elchi.Syncing.Recovery

import Elchi.GuardedRuns
namespace Elchi.Interleaving
variable {G L Q C E K : Type}

-- Requests that work on a shared state one statement at a time. A choice is what the outside
-- decides about one statement; a request that has to wait stays as it is.
structure System (G L Q C E : Type) where
  start : Q → L
  next : Nat → C → G → L → G × L
  world : E → G → G
inductive Turn (Q C E : Type) where
  | arrive (request : Q)
  | step (who : Nat) (choice : C)
  | world (event : E)
structure Machine (G L : Type) where
  shared : G
  workers : List L

section Runs
variable (sys : System G L Q C E)

def System.advance (m : Machine G L) : Turn Q C E → Machine G L
  | .arrive request => {m with workers:=m.workers ++ [sys.start request]}
  | .step who choice => match m.workers[who]? with
    | none => m
    | some worker => ⟨(sys.next who choice m.shared worker).1,m.workers.set who (sys.next who choice m.shared worker).2⟩
  | .world event => {m with shared:=sys.world event m.shared}
def System.run (shared : G) (turns : List (Turn Q C E)) : Machine G L := Runs.runFrom sys.advance ⟨shared,[]⟩ turns

-- An invariant of the shared state, and what each request may rely on where it stands.
def Machine.Holds (I : Nat → G → Prop) (At : Nat → G → L → Prop) (m : Machine G L) : Prop :=
  I m.workers.length m.shared ∧ ∀ who worker,m.workers[who]? = some worker → At who m.shared worker

-- Every statement restores the invariant, leads its own request to where it may stand next and
-- takes from no other request what that one relies on.
structure System.Keeps (cond : Machine G L → Turn Q C E → Prop) (I : Nat → G → Prop) (At : Nat → G → L → Prop) : Prop where
  arrive : ∀ m request,m.Holds I At → cond m (.arrive request) →
    I (m.workers.length+1) m.shared ∧ At m.workers.length m.shared (sys.start request)
  own : ∀ m who choice worker,m.Holds I At → cond m (.step who choice) → m.workers[who]? = some worker →
    I m.workers.length (sys.next who choice m.shared worker).1 ∧
      At who (sys.next who choice m.shared worker).1 (sys.next who choice m.shared worker).2
  others : ∀ m who choice worker other idle,m.Holds I At → cond m (.step who choice) → m.workers[who]? = some worker →
    other ≠ who → m.workers[other]? = some idle → At other (sys.next who choice m.shared worker).1 idle
  world : ∀ m event,m.Holds I At → cond m (.world event) →
    I m.workers.length (sys.world event m.shared) ∧ ∀ who worker,m.workers[who]? = some worker → At who (sys.world event m.shared) worker

end Runs

section Rule
variable {sys : System G L Q C E} {cond : Machine G L → Turn Q C E → Prop} {I : Nat → G → Prop} {At : Nat → G → L → Prop}

-- Where a request stands after a turn.
theorem advance_arrive (m : Machine G L) (request : Q) :
    sys.advance m (.arrive request) = {m with workers:=m.workers ++ [sys.start request]} := rfl
theorem advance_step (m : Machine G L) (who : Nat) (choice : C) :
    sys.advance m (.step who choice) = match m.workers[who]? with
      | none => m
      | some worker => ⟨(sys.next who choice m.shared worker).1,m.workers.set who (sys.next who choice m.shared worker).2⟩ := rfl
theorem look_arrive (m : Machine G L) (request : Q) (who : Nat) :
    (sys.advance m (.arrive request)).workers[who]? = if who = m.workers.length then some (sys.start request) else m.workers[who]? := by
  rw [advance_arrive,List.getElem?_append,List.getElem?_singleton]
  by_cases last : who = m.workers.length
  · simp [last]
  · by_cases inside : who < m.workers.length
    · simp [last,inside]
    · have beyond : who - m.workers.length ≠ 0 := by omega
      simp [last,inside,beyond]
theorem look_step {m : Machine G L} {who : Nat} {worker : L} (here : m.workers[who]? = some worker) (choice : C) (other : Nat) :
    (sys.advance m (.step who choice)).workers[other]? =
      if other = who then some (sys.next who choice m.shared worker).2 else m.workers[other]? := by
  have inside : who < m.workers.length := (List.getElem?_eq_some_iff.mp here).1
  rw [advance_step,here,List.getElem?_set]
  by_cases same : other = who
  · subst same
    simp [inside]
  · simp [same,Ne.symm same]
theorem shared_step {m : Machine G L} {who : Nat} {worker : L} (here : m.workers[who]? = some worker) (choice : C) :
    (sys.advance m (.step who choice)).shared = (sys.next who choice m.shared worker).1 := by
  rw [advance_step,here]
theorem idle_step {m : Machine G L} {who : Nat} (nobody : m.workers[who]? = none) (choice : C) : sys.advance m (.step who choice) = m := by
  rw [advance_step,nobody]

theorem advance_holds (keeps : sys.Keeps cond I At) {m : Machine G L} {turn : Turn Q C E} (holds : m.Holds I At) (met : cond m turn) :
    (sys.advance m turn).Holds I At := by
  cases turn with
  | arrive request =>
    obtain ⟨counted,starts⟩ := keeps.arrive m request holds met
    refine ⟨by simpa [advance_arrive] using counted,fun who worker here => ?_⟩
    rw [look_arrive] at here
    split at here
    · rename_i last
      cases here
      exact last ▸ starts
    · exact holds.2 who worker here
  | step who choice =>
    cases here : m.workers[who]? with
    | none => exact (idle_step here choice).symm ▸ holds
    | some worker =>
      obtain ⟨restored,stands⟩ := keeps.own m who choice worker holds met here
      refine ⟨by simpa [advance_step,here] using restored,fun other idle there => ?_⟩
      rw [shared_step here]
      rw [look_step here] at there
      split at there
      · rename_i same
        cases there
        exact same ▸ stands
      · rename_i apart
        exact keeps.others m who choice worker other idle holds met here apart there
  | world event => exact keeps.world m event holds met

theorem start_holds {shared : G} (start : I 0 shared) : (⟨shared,[]⟩ : Machine G L).Holds I At :=
  ⟨start,fun who worker here => by simp at here⟩

theorem run_holds (keeps : sys.Keeps cond I At) {shared : G} {turns : List (Turn Q C E)} (start : I 0 shared)
    (meets : Runs.Meets sys.advance cond ⟨shared,[]⟩ turns) : (sys.run shared turns).Holds I At :=
  Runs.run_keeps (fun _ _ holds met => advance_holds keeps holds met) (start_holds start) meets

-- A run up to one of its turns, and that turn.
theorem run_snoc (shared : G) (front : List (Turn Q C E)) (turn : Turn Q C E) :
    sys.run shared (front ++ [turn]) = sys.advance (sys.run shared front) turn := by
  simp [System.run,Runs.runFrom]
theorem meets_front {shared : G} {turns front : List (Turn Q C E)} (meets : Runs.Meets sys.advance cond ⟨shared,[]⟩ turns)
    (reached : front <+: turns) : Runs.Meets sys.advance cond ⟨shared,[]⟩ front := by
  obtain ⟨rest,rfl⟩ := reached
  exact (Runs.meets_append.mp meets).1

end Rule

-- Row locks: each entry is a locked row and the request that holds it until its transaction ends.
abbrev Locks (K : Type) := List (K × Nat)
section Locks
variable [DecidableEq K]

def Locks.free (locks : Locks K) (who : Nat) (row : K) : Bool := locks.all fun entry => entry.1 != row || entry.2 == who
def Locks.release (locks : Locks K) (who : Nat) : Locks K := locks.filter fun entry => entry.2 != who
def Locks.Exclusive (locks : Locks K) : Prop := ∀ row a b,(row,a) ∈ locks → (row,b) ∈ locks → a = b

theorem free_owner {locks : Locks K} (free : locks.free who row = true) (held : (row,other) ∈ locks) : other = who := by
  have entry := List.all_eq_true.mp free (row,other) held
  simpa using entry
theorem exclusive_take {locks : Locks K} (exclusive : locks.Exclusive) (free : locks.free who row = true) :
    Locks.Exclusive ((row,who) :: locks) := by
  intro key a b left right
  rcases List.mem_cons.mp left with same | left
  · cases same
    rcases List.mem_cons.mp right with same | right
    · cases same; rfl
    · exact (free_owner free right).symm
  · rcases List.mem_cons.mp right with same | right
    · cases same; exact free_owner free left
    · exact exclusive key a b left right
omit [DecidableEq K] in
theorem exclusive_release {locks : Locks K} (exclusive : locks.Exclusive) (who : Nat) : (locks.release who).Exclusive :=
  fun row a b left right => exclusive row a b (List.mem_filter.mp left).1 (List.mem_filter.mp right).1
omit [DecidableEq K] in
theorem release_other {locks : Locks K} (held : (row,other) ∈ locks) (apart : other ≠ who) : (row,other) ∈ locks.release who :=
  List.mem_filter.mpr ⟨held,by simpa using apart⟩

end Locks

end Elchi.Interleaving

import Elchi.Interleaving
namespace Elchi.Programs
variable {A S F E α β γ : Type} {Answer : A → Type}

-- A procedure that reaches the world through calls, each of which answers or fails.
inductive Program (Answer : A → Type) (E α : Type) where
  | done (result : Except E α)
  | call (action : A) (next : Except E (Answer action) → Program Answer E α)

def Program.bind : Program Answer E α → (α → Program Answer E β) → Program Answer E β
  | .done (.ok a),f => f a
  | .done (.error e),_ => .done (.error e)
  | .call action next,f => .call action fun answer => (next answer).bind f
instance : Monad (Program Answer E) where
  pure a := .done (.ok a)
  bind := Program.bind

def perform (action : A) : Program Answer E (Answer action) := .call action .done
def fail (error : E) : Program Answer E α := .done (.error error)
def require (fine : Bool) (error : E) : Program Answer E Unit := if fine then .done (.ok ()) else fail error
def found (row : Option α) (error : E) : Program Answer E α :=
  match row with
  | some a => .done (.ok a)
  | none => fail error
def refuse (row : Option α) (error : α → E) : Program Answer E Unit :=
  match row with
  | some a => fail (error a)
  | none => .done (.ok ())
def onlyIf (c : Bool) (op : Program Answer E Unit) : Program Answer E Unit := if c then op else .done (.ok ())
-- A try block, with what it has thrown.
def Program.attempt : Program Answer E α → Program Answer E (Except E α)
  | .done result => .done (.ok result)
  | .call action next => .call action fun answer => (next answer).attempt
-- A procedure whose failure changes nothing, and a lookup whose failure is read as a default.
def tolerate (program : Program Answer E Unit) : Program Answer E Unit := program.attempt.bind fun _ => .done (.ok ())
def lenient (lookup : Program Answer E α) (default : α) : Program Answer E α := lookup.attempt.bind fun
  | .ok found => .done (.ok found)
  | .error _ => .done (.ok default)
-- What is there already, or else what is looked up; and a lookup by a key that may be missing.
def orFind (row : Option α) (query : Program Answer E (Option α)) : Program Answer E (Option α) :=
  match row with
  | some a => .done (.ok (some a))
  | none => query
def findIfGiven (key : Option β) (query : β → Program Answer E (Option α)) : Program Answer E (Option α) :=
  match key with
  | some key => query key
  | none => .done (.ok none)
def forEach (body : β → Program Answer E Unit) : List β → Program Answer E Unit
  | [] => .done (.ok ())
  | x :: rest => (body x).bind fun _ => forEach body rest
def collect (body : β → Program Answer E γ) : List β → Program Answer E (List γ)
  | [] => .done (.ok [])
  | x :: rest => (body x).bind fun y => (collect body rest).bind fun ys => .done (.ok (y :: ys))
-- The items done before the first failure, and that failure.
def untilFailure (body : β → Program Answer E Unit) : List β → Program Answer E (List β × Option E)
  | [] => .done (.ok ([],none))
  | x :: rest => (body x).attempt.bind fun
    | .error e => .done (.ok ([],some e))
    | .ok _ => (untilFailure body rest).bind fun later => .done (.ok (x :: later.1,later.2))
def Program.finished : Program Answer E α → Bool
  | .done _ => true
  | .call _ _ => false

-- A world that answers calls. A fate is what the outside decides about one call.
abbrev Handler (Answer : A → Type) (E S F : Type) := F → (action : A) → S → S × Except E (Answer action)
-- A procedure on its own, with the fates its calls have not used.
def Program.exec (handler : Handler Answer E S F) (usual : F) : Program Answer E α → List F → S → S × Except E α × List F
  | .done result,fates,s => (s,result,fates)
  | .call action next,fates,s =>
    (next (handler (fates.headD usual) action s).2).exec handler usual fates.tail (handler (fates.headD usual) action s).1

-- What holds at the end of a procedure, and of every state on the way, under every fate that is allowed.
def Program.Ends (handler : Handler Answer E S F) (allowed : F → Prop) (always : S → Prop) (Q : Except E α → S → Prop) :
    Program Answer E α → S → Prop
  | .done result,s => Q result s
  | .call action next,s => ∀ fate,allowed fate → always (handler fate action s).1 ∧
    (next (handler fate action s).2).Ends handler allowed always Q (handler fate action s).1

theorem bind_done (program : Program Answer E α) : (program.bind fun a => .done (.ok a)) = program := by
  induction program with
  | done result =>
    cases result with
    | ok a => rfl
    | error e => rfl
  | call action next ih => exact congrArg (Program.call action) (funext ih)

section Worlds
variable {handler : Handler Answer E S F} {allowed : F → Prop} {always : S → Prop} {usual : F}

theorem exec_bind (program : Program Answer E α) (f : α → Program Answer E β) (fates : List F) (s : S) :
    (program.bind f).exec handler usual fates s = match program.exec handler usual fates s with
      | (after,.ok a,rest) => (f a).exec handler usual rest after
      | (after,.error e,rest) => (after,.error e,rest) := by
  induction program generalizing fates s with
  | done result =>
    cases result with
    | ok a => rfl
    | error e => rfl
  | call action next ih => exact ih _ _ _

theorem ends_bind {program : Program Answer E α} {f : α → Program Answer E β} {Q : Except E β → S → Prop} {s : S}
    (first : program.Ends handler allowed always (fun result s => match result with
      | .ok a => (f a).Ends handler allowed always Q s
      | .error e => Q (.error e) s) s) : (program.bind f).Ends handler allowed always Q s := by
  induction program generalizing s with
  | done result =>
    cases result with
    | ok a => exact first
    | error e => exact first
  | call action next ih => exact fun fate fine => ⟨(first fate fine).1,ih _ (first fate fine).2⟩
theorem ends_mono {program : Program Answer E α} {Q Q' : Except E α → S → Prop} {s : S}
    (ends : program.Ends handler allowed always Q s) (weaker : ∀ result s,Q result s → Q' result s) :
    program.Ends handler allowed always Q' s := by
  induction program generalizing s with
  | done result => exact weaker result s ends
  | call action next ih => exact fun fate fine => ⟨(ends fate fine).1,ih _ (ends fate fine).2⟩
theorem ends_wider {always' : S → Prop} {program : Program Answer E α} {Q : Except E α → S → Prop} {s : S}
    (ends : program.Ends handler allowed always Q s) (wider : ∀ s,always s → always' s) : program.Ends handler allowed always' Q s := by
  induction program generalizing s with
  | done result => exact ends
  | call action next ih => exact fun fate fine => ⟨wider _ (ends fate fine).1,ih _ (ends fate fine).2⟩
theorem ends_attempt {program : Program Answer E α} {Q : Except E (Except E α) → S → Prop} {s : S}
    (ends : program.Ends handler allowed always (fun result => Q (.ok result)) s) : program.attempt.Ends handler allowed always Q s := by
  induction program generalizing s with
  | done result => exact ends
  | call action next ih => exact fun fate fine => ⟨(ends fate fine).1,ih _ (ends fate fine).2⟩
theorem ends_require {fine : Bool} {error : E} {f : Unit → Program Answer E β} {Q : Except E β → S → Prop} {s : S}
    (passed : fine = true → (f ()).Ends handler allowed always Q s) (stopped : fine = false → Q (.error error) s) :
    ((require fine error).bind f).Ends handler allowed always Q s := by
  cases fine with
  | true => exact passed rfl
  | false => exact stopped rfl
theorem ends_found {row : Option α} {error : E} {f : α → Program Answer E β} {Q : Except E β → S → Prop} {s : S}
    (passed : ∀ a,row = some a → (f a).Ends handler allowed always Q s) (stopped : row = none → Q (.error error) s) :
    ((found row error).bind f).Ends handler allowed always Q s := by
  cases row with
  | some a => exact passed a rfl
  | none => exact stopped rfl
theorem ends_refuse {row : Option α} {error : α → E} {f : Unit → Program Answer E β} {Q : Except E β → S → Prop} {s : S}
    (passed : row = none → (f ()).Ends handler allowed always Q s) (stopped : ∀ a,row = some a → Q (.error (error a)) s) :
    ((refuse row error).bind f).Ends handler allowed always Q s := by
  cases row with
  | some a => exact stopped a rfl
  | none => exact passed rfl
theorem ends_tolerate {program : Program Answer E Unit} {Q : Except E Unit → S → Prop} {s : S}
    (ends : program.Ends handler allowed always (fun _ => Q (.ok ())) s) : (tolerate program).Ends handler allowed always Q s :=
  ends_bind (ends_attempt ends)
theorem ends_onlyIf {c : Bool} {op : Program Answer E Unit} {Q : Except E Unit → S → Prop} {s : S}
    (done : c = true → op.Ends handler allowed always Q s) (skipped : c = false → Q (.ok ()) s) :
    (onlyIf c op).Ends handler allowed always Q s := by
  cases c with
  | true => exact done rfl
  | false => exact skipped rfl
-- The rule for a loop: an invariant of the items that are left.
theorem ends_forEach {body : β → Program Answer E Unit} {Q : Except E Unit → S → Prop} (I : List β → S → Prop) {items : List β} {s : S}
    (step : ∀ x rest s,I (x :: rest) s → (body x).Ends handler allowed always (fun result s => match result with
      | .ok _ => I rest s
      | .error e => Q (.error e) s) s) (start : I items s) (ended : ∀ s,I [] s → Q (.ok ()) s) :
    (forEach body items).Ends handler allowed always Q s := by
  induction items generalizing s with
  | nil => exact ended s start
  | cons x rest ih =>
    refine ends_bind (ends_mono (step x rest s start) fun result s holds => ?_)
    cases result with
    | ok a => exact ih holds
    | error e => exact holds
theorem ends_forEach_bind {body : β → Program Answer E Unit} {f : Unit → Program Answer E γ} {Q : Except E γ → S → Prop}
    (I : List β → S → Prop) {items : List β} {s : S}
    (step : ∀ x rest s,I (x :: rest) s → (body x).Ends handler allowed always (fun result s => match result with
      | .ok _ => I rest s
      | .error e => Q (.error e) s) s) (start : I items s) (ended : ∀ s,I [] s → (f ()).Ends handler allowed always Q s) :
    ((forEach body items).bind f).Ends handler allowed always Q s :=
  ends_bind (ends_forEach I step start ended)
-- The same for a loop that collects results: what it has collected, and what is left.
theorem ends_collect {body : β → Program Answer E γ} {Q : Except E (List γ) → S → Prop} (I : List γ → List β → S → Prop)
    {items : List β} {s : S}
    (step : ∀ ys x rest s,I ys (x :: rest) s → (body x).Ends handler allowed always (fun result s => match result with
      | .ok y => I (ys ++ [y]) rest s
      | .error e => Q (.error e) s) s) (front : List γ) (start : I front items s) (ended : ∀ ys s,I (front ++ ys) [] s → Q (.ok ys) s) :
    (collect body items).Ends handler allowed always Q s := by
  induction items generalizing front Q s with
  | nil => exact ended [] s (by simpa using start)
  | cons x rest ih =>
    refine ends_bind (ends_mono (step front x rest s start) fun result s holds => ?_)
    cases result with
    | error e => exact holds
    | ok y =>
      refine ends_bind (ih ?_ (front ++ [y]) holds fun ys s later => ended (y :: ys) s (by simpa using later))
      intro ys x rest s holds
      exact ends_mono (step ys x rest s holds) fun result s done => by
        cases result with
        | ok y => exact done
        | error e => exact done
theorem ends_collect_bind {body : β → Program Answer E γ} {f : List γ → Program Answer E α} {Q : Except E α → S → Prop}
    (I : List γ → List β → S → Prop) {items : List β} {s : S}
    (step : ∀ ys x rest s,I ys (x :: rest) s → (body x).Ends handler allowed always (fun result s => match result with
      | .ok y => I (ys ++ [y]) rest s
      | .error e => Q (.error e) s) s) (start : I [] items s)
    (ended : ∀ ys s,I ys [] s → (f ys).Ends handler allowed always Q s) :
    ((collect body items).bind f).Ends handler allowed always Q s :=
  ends_bind (ends_collect I step [] start ended)
-- And for one that stops at the first failure.
theorem ends_untilFailure {body : β → Program Answer E Unit} {Q : Except E (List β × Option E) → S → Prop} (I : List β → List β → S → Prop)
    {items : List β} {s : S}
    (step : ∀ ys x rest s,I ys (x :: rest) s → (body x).Ends handler allowed always (fun result s => match result with
      | .ok _ => I (ys ++ [x]) rest s
      | .error e => Q (.ok (ys,some e)) s) s) (start : I [] items s)
    (ended : ∀ s,I items [] s → Q (.ok (items,none)) s) :
    (untilFailure body items).Ends handler allowed always Q s := by
  have along : ∀ (rest : List β) (front : List β) (s : S),I front rest s → front ++ rest = items →
      (untilFailure body rest).Ends handler allowed always (fun result s => match result with
        | .ok (done,failure) => Q (.ok (front ++ done,failure)) s
        | .error e => Q (.error e) s) s := by
    intro rest
    induction rest with
    | nil =>
      intro front s holds whole
      obtain rfl : front = items := by simpa using whole
      simpa [untilFailure,Program.Ends] using ended s holds
    | cons x rest ih =>
      intro front s holds whole
      refine ends_bind (ends_attempt (ends_mono (step front x rest s holds) fun result s later => ?_))
      cases result with
      | error e => simpa [Program.Ends] using later
      | ok _ =>
        refine ends_bind (ends_mono (ih (front ++ [x]) s later (by simpa using whole)) fun result s done => ?_)
        cases result with
        | error e => exact done
        | ok pair =>
          obtain ⟨ys,failure⟩ := pair
          simpa [Program.Ends] using done
  refine ends_mono (along items [] s start rfl) fun result s done => ?_
  cases result with
  | error e => exact done
  | ok pair => exact done
theorem ends_exec {program : Program Answer E α} {Q : Except E α → S → Prop} {fates : List F} {s : S}
    (ends : program.Ends handler allowed always Q s) (fine : ∀ fate ∈ fates,allowed fate) (rest : allowed usual) :
    Q (program.exec handler usual fates s).2.1 (program.exec handler usual fates s).1 := by
  induction program generalizing fates s with
  | done result => exact ends
  | call action next ih =>
    have here : allowed (fates.headD usual) := by
      cases fates with
      | nil => exact rest
      | cons fate later => exact fine fate List.mem_cons_self
    exact ih _ (ends _ here).2 fun fate member => fine fate (List.mem_of_mem_tail member)

theorem ends_always {program : Program Answer E α} {Q : Except E α → S → Prop} {fates : List F} {s : S}
    (ends : program.Ends handler allowed always Q s) (fine : ∀ fate ∈ fates,allowed fate) (rest : allowed usual) (now : always s) :
    always (program.exec handler usual fates s).1 := by
  induction program generalizing fates s with
  | done result => exact now
  | call action next ih =>
    have here : allowed (fates.headD usual) := by
      cases fates with
      | nil => exact rest
      | cons fate later => exact fine fate List.mem_cons_self
    exact ih _ (ends _ here).2 (fun fate member => fine fate (List.mem_of_mem_tail member)) (ends _ here).1

end Worlds

-- What a procedure does to the state, from any state it starts in and however it ends.
def Program.Steps (handler : Handler Answer E S F) (allowed : F → Prop) (always : S → Prop) (R : S → S → Prop)
    (program : Program Answer E α) : Prop :=
  ∀ s,always s → program.Ends handler allowed always (fun _ after => always after ∧ R s after) s
structure Steady (R : S → S → Prop) : Prop where
  refl : ∀ s,R s s
  trans : ∀ {a b c},R a b → R b c → R a c

section Stepping
variable {handler : Handler Answer E S F} {allowed : F → Prop} {always : S → Prop} {R : S → S → Prop}

theorem steady_eq : Steady (Eq : S → S → Prop) := ⟨fun _ => rfl,Eq.trans⟩
theorem steady_true : Steady fun (_ _ : S) => True := ⟨fun _ => trivial,fun _ _ => trivial⟩

theorem steps_done (steady : Steady R) (result : Except E α) : (.done result : Program Answer E α).Steps handler allowed always R :=
  fun s now => ⟨now,steady.refl s⟩
theorem steps_bind (steady : Steady R) {program : Program Answer E α} {f : α → Program Answer E β}
    (first : program.Steps handler allowed always R) (rest : ∀ a,(f a).Steps handler allowed always R) :
    (program.bind f).Steps handler allowed always R := by
  intro s now
  refine ends_bind (ends_mono (first s now) fun result after moved => ?_)
  cases result with
  | error e => exact moved
  | ok a => exact ends_mono (rest a after moved.1) fun _ _ later => ⟨later.1,steady.trans moved.2 later.2⟩
theorem steps_call {action : A} (steps : ∀ s fate,always s → allowed fate → always (handler fate action s).1 ∧ R s (handler fate action s).1) :
    (perform action : Program Answer E (Answer action)).Steps handler allowed always R :=
  fun s now fate fine => ⟨(steps s fate now fine).1,steps s fate now fine⟩
theorem steps_attempt {program : Program Answer E α} (steps : program.Steps handler allowed always R) :
    program.attempt.Steps handler allowed always R := fun s now => ends_attempt (steps s now)
theorem steps_tolerate (steady : Steady R) {program : Program Answer E Unit} (steps : program.Steps handler allowed always R) :
    (tolerate program).Steps handler allowed always R :=
  steps_bind steady (steps_attempt steps) fun _ => steps_done steady _
theorem steps_lenient (steady : Steady R) {lookup : Program Answer E α} {default : α} (steps : lookup.Steps handler allowed always R) :
    (lenient lookup default).Steps handler allowed always R :=
  steps_bind steady (steps_attempt steps) fun result => by
    cases result with
    | ok a => exact steps_done steady _
    | error e => exact steps_done steady _
theorem steps_found (steady : Steady R) (row : Option α) (error : E) :
    (found row error : Program Answer E α).Steps handler allowed always R := by
  cases row with
  | some a => exact steps_done steady _
  | none => exact steps_done steady _
theorem steps_require (steady : Steady R) (fine : Bool) (error : E) :
    (require fine error : Program Answer E Unit).Steps handler allowed always R := by
  cases fine with
  | true => exact steps_done steady _
  | false => exact steps_done steady _
theorem steps_refuse (steady : Steady R) (row : Option α) (error : α → E) :
    (refuse row error : Program Answer E Unit).Steps handler allowed always R := by
  cases row with
  | some a => exact steps_done steady _
  | none => exact steps_done steady _
theorem steps_onlyIf (steady : Steady R) {c : Bool} {program : Program Answer E Unit} (steps : program.Steps handler allowed always R) :
    (onlyIf c program).Steps handler allowed always R := by
  cases c with
  | true => exact steps
  | false => exact steps_done steady _
theorem steps_findIfGiven (steady : Steady R) {query : β → Program Answer E (Option α)}
    (steps : ∀ key,(query key).Steps handler allowed always R) (key : Option β) :
    (findIfGiven key query).Steps handler allowed always R := by
  cases key with
  | some key => exact steps key
  | none => exact steps_done steady _
theorem steps_orFind (steady : Steady R) {query : Program Answer E (Option α)} (steps : query.Steps handler allowed always R)
    (row : Option α) : (orFind row query).Steps handler allowed always R := by
  cases row with
  | some a => exact steps_done steady _
  | none => exact steps
theorem steps_forEach (steady : Steady R) {body : β → Program Answer E Unit} (each : ∀ x,(body x).Steps handler allowed always R)
    (items : List β) : (forEach body items).Steps handler allowed always R := by
  induction items with
  | nil => exact steps_done steady _
  | cons x rest ih => exact steps_bind steady (each x) fun _ => ih
theorem steps_collect (steady : Steady R) {body : β → Program Answer E γ} (each : ∀ x,(body x).Steps handler allowed always R)
    (items : List β) : (collect body items).Steps handler allowed always R := by
  induction items with
  | nil => exact steps_done steady _
  | cons x rest ih => exact steps_bind steady (each x) fun _ => steps_bind steady ih fun _ => steps_done steady _

end Stepping

-- Many procedures in one world, a call of one of them at a time.
section Sessions
open Interleaving
variable {Q : Type}

def nextCall (handler : Handler Answer E S F) (fate : F) (s : S) : Program Answer E α → S × Program Answer E α
  | .done result => (s,.done result)
  | .call action next => ((handler fate action s).1,next (handler fate action s).2)
def sessions (handler : Handler Answer E S F) (start : Q → Program Answer E α) : System S (Program Answer E α) Q F Empty where
  start := start
  next := fun _ fate s program => nextCall handler fate s program
  world := fun event _ => event.elim

def Idle (m : Machine S (Program Answer E α)) : Prop := ∀ worker ∈ m.workers,worker.finished = true
-- One procedure at a time, with fates that are allowed.
def Alone (allowed : F → Prop) (fits : Q → S → Prop) (m : Machine S (Program Answer E α)) : Interleaving.Turn Q F Empty → Prop
  | .arrive request => Idle m ∧ fits request m.shared
  | .step _ fate => allowed fate
  | .world event => event.elim

variable {handler : Handler Answer E S F} {allowed : F → Prop} {always rests : S → Prop} {fits : Q → S → Prop}
  {start : Q → Program Answer E α}

-- Where a lone procedure stands: what is left of it ends well from here.
structure Standing (handler : Handler Answer E S F) (allowed : F → Prop) (always rests : S → Prop)
    (m : Machine S (Program Answer E α)) : Prop where
  now : always m.shared
  settled : Idle m → rests m.shared
  ends : ∀ worker ∈ m.workers,worker.finished = false → worker.Ends handler allowed always (fun _ => rests) m.shared
  single : ∀ (who other : Nat) (worker idle : Program Answer E α),m.workers[who]? = some worker → m.workers[other]? = some idle →
    worker.finished = false → idle.finished = false → who = other

theorem arrive_standing {m : Machine S (Program Answer E α)} {request : Q} (standing : Standing handler allowed always rests m)
    (idle : Idle m) (program : (start request).Ends handler allowed always (fun _ => rests) m.shared) :
    Standing handler allowed always rests ((sessions handler start).advance m (.arrive request)) where
  now := standing.now
  settled := fun _ => standing.settled idle
  ends := by
    intro worker member running
    rcases List.mem_append.mp member with old | new
    · simp [idle worker old] at running
    · obtain rfl : worker = start request := by simpa [sessions] using new
      exact program
  single := by
    have busy : ∀ {who : Nat} {worker : Program Answer E α},
        ((sessions handler start).advance m (.arrive request)).workers[who]? = some worker → worker.finished = false →
        who = m.workers.length := by
      intro who worker here running
      rw [look_arrive] at here
      split at here
      · assumption
      · simp [idle worker (List.mem_of_getElem? here)] at running
    intro who other worker idle here there running runs
    exact (busy here running).trans (busy there runs).symm

theorem step_standing {m : Machine S (Program Answer E α)} {who : Nat} {fate : F}
    (standing : Standing handler allowed always rests m) (fine : allowed fate) :
    Standing handler allowed always rests ((sessions handler start).advance m (.step who fate)) := by
  cases here : m.workers[who]? with
  | none => rwa [idle_step here]
  | some worker =>
    have inside := List.mem_of_getElem? here
    have shared : ((sessions handler start).advance m (.step who fate)).shared = (nextCall handler fate m.shared worker).1 :=
      shared_step here fate
    have looks : ∀ other,((sessions handler start).advance m (.step who fate)).workers[other]? =
        if other = who then some (nextCall handler fate m.shared worker).2 else m.workers[other]? := look_step here fate
    cases worker with
    | done result =>
      have same : (sessions handler start).advance m (.step who fate) = m := by
        have unmoved : m.workers.set who (.done result) = m.workers := by
          obtain ⟨bound,value⟩ := List.getElem?_eq_some_iff.mp here
          rw [← value,List.set_getElem_self]
        simp [System.advance,here,sessions,nextCall,unmoved]
      rwa [same]
    | call action next =>
      have step := (standing.ends _ inside rfl) fate fine
      -- Everybody else has finished, before the call and after it.
      have others : ∀ {other : Nat} {idle : Program Answer E α},other ≠ who → m.workers[other]? = some idle → idle.finished = true := by
        intro other idle apart there
        cases running : idle.finished with
        | true => rfl
        | false => exact absurd (standing.single other who idle _ there here running rfl) apart
      have busy : ∀ {other : Nat} {idle : Program Answer E α},
          ((sessions handler start).advance m (.step who fate)).workers[other]? = some idle → idle.finished = false →
          other = who ∧ idle = next (handler fate action m.shared).2 := by
        intro other idle there running
        rw [looks] at there
        split at there
        · rename_i same
          exact ⟨same,(Option.some.inj there).symm⟩
        · rename_i apart
          simp [others apart there] at running
      refine ⟨?_,?_,?_,?_⟩
      · rw [shared]
        exact step.1
      · intro idle
        have own : ((sessions handler start).advance m (.step who fate)).workers[who]? = some (next (handler fate action m.shared).2) := by
          rw [looks,if_pos rfl]
          rfl
        have finished := idle _ (List.mem_of_getElem? own)
        have ended := step.2
        rw [shared]
        show rests (handler fate action m.shared).1
        cases left : next (handler fate action m.shared).2 with
        | done result => simpa [left,Program.Ends] using ended
        | call later rest => simp [left,Program.finished] at finished
      · intro worker member running
        obtain ⟨other,there⟩ := List.mem_iff_getElem?.mp member
        obtain ⟨rfl,rfl⟩ := busy there running
        rw [shared]
        exact step.2
      · intro one two worker idle first second running runs
        exact (busy first running).1.trans (busy second runs).1.symm

-- One procedure at a time: every state has what holds on the way, and a state in which nothing is
-- under way has what every procedure ends with.
theorem alone_standing (ends : ∀ request s,always s → rests s → fits request s →
      (start request).Ends handler allowed always (fun _ => rests) s) {s : S} {turns : List (Interleaving.Turn Q F Empty)} (now : always s)
    (settled : rests s) (meets : Runs.Meets (sessions handler start).advance (Alone allowed fits) ⟨s,[]⟩ turns) :
    Standing handler allowed always rests ((sessions handler start).run s turns) := by
  refine Runs.run_keeps (P:=Standing handler allowed always rests) ?_ ⟨now,fun _ => settled,by simp,by simp⟩ meets
  intro m turn standing met
  cases turn with
  | arrive request =>
    obtain ⟨idle,fit⟩ := met
    exact arrive_standing standing idle (ends request m.shared standing.now (standing.settled idle) fit)
  | step who fate => exact step_standing standing met
  | world event => exact event.elim

end Sessions

end Elchi.Programs

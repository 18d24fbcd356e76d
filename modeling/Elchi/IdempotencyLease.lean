import Elchi.Outbox
namespace Elchi.Idempotency
open Outbox (KeyRecord)
variable {α : Type}

-- One delivery of a message in executeIdempotent, between its statements. `since` is the lease
-- it took; `ran` says that the handler has returned.
inductive Worker (α : Type) where
  | undelivered
  | inserting
  | looking
  | found (createdAt : Nat)
  | reclaiming (asked : Nat)
  | running (since : Nat)
  | returned (since : Nat) (response : α)
  | acking (response : α)
  | failing (since : Option Nat) (ran : Bool) (error : String)
  | cached (response : α)
  | refused (error : String)
  | requeued
  | replied (response : α)
  | threw (error : String)
  | dead
deriving DecidableEq, Repr

def Worker.since : Worker α → Option Nat
  | .running since => some since
  | .returned since _ => some since
  | .failing since _ _ => since
  | _ => none
-- The handler has returned and neither its completion nor its failure is recorded.
def Worker.unmarked : Worker α → Bool
  | .returned _ _ => true
  | .failing (some _) ran _ => ran
  | _ => false

-- The record of one key, the clock, every delivery of the key, how often a completion was
-- recorded and the handler returned, and whether a return was left without any mark.
structure Keeper (α : Type) where
  record : Option (KeyRecord α)
  now : Nat
  workers : Nat → Worker α
  completions : Nat
  returns : Nat
  abandoned : Bool

def Keeper.set (s : Keeper α) (who : Nat) (worker : Worker α) : Keeper α :=
  {s with workers:=fun other => if other = who then worker else s.workers other}

-- The UPDATE of a stale lease: still in progress, and still older than the cutoff.
def reclaims (leaseMs asked : Nat) : Option (KeyRecord α) → Bool
  | some (.inProgress createdAt) => createdAt + leaseMs < asked
  | _ => false
def Keeper.complete (s : Keeper α) (response : α) : Keeper α :=
  {s with record:=s.record.map fun _ => .completed response,completions:=s.completions+1}
def Keeper.fail (s : Keeper α) (error : String) : Keeper α := {s with record:=s.record.map fun _ => .failed error}

-- The next statement succeeds.
def Keeper.go (leaseMs : Nat) (s : Keeper α) (who : Nat) : Keeper α :=
  match s.workers who with
  | .inserting =>
    if s.record.isNone then {s.set who (.running s.now) with record:=some (.inProgress s.now)} else s.set who .looking
  | .looking => match s.record with
    | none => s.set who (.running s.now)
    | some (.completed response) => s.set who (.cached response)
    | some (.failed error) => s.set who (.refused error)
    | some (.inProgress createdAt) => s.set who (.found createdAt)
  | .found createdAt => if createdAt + leaseMs < s.now then s.set who (.reclaiming s.now) else s.set who .requeued
  | .reclaiming asked =>
    if reclaims leaseMs asked s.record then {s.set who (.running s.now) with record:=some (.inProgress s.now)}
    else s.set who .requeued
  | .returned _ response => (s.complete response).set who (.acking response)
  | .acking response => s.set who (.replied response)
  | .failing _ _ error => (s.fail error).set who (.threw error)
  | _ => s

-- The statement throws, with or without having taken effect. What the handler, markCompleted
-- and the ack throw is caught and recorded; all else ends the delivery.
def Keeper.breaks (leaseMs : Nat) (s : Keeper α) (who : Nat) (took : Bool) (error : String) : Keeper α :=
  match s.workers who with
  | .inserting =>
    if took && s.record.isNone then {s.set who (.threw error) with record:=some (.inProgress s.now)} else s.set who (.threw error)
  | .looking => s.set who (.threw error)
  | .reclaiming asked =>
    if took && reclaims leaseMs asked s.record then {s.set who (.threw error) with record:=some (.inProgress s.now)}
    else s.set who (.threw error)
  | .returned since response =>
    if took then (s.complete response).set who (.failing none true error) else s.set who (.failing (some since) true error)
  | .acking _ => s.set who (.failing none true error)
  | .failing since ran cause =>
    if took then (s.fail cause).set who (.threw error)
    else {s.set who (.threw error) with abandoned:=s.abandoned || (since.isSome && ran)}
  | _ => s

inductive Event (α : Type) where
  | wait (ms : Nat)
  | deliver (who : Nat)
  | go (who : Nat)
  | breaks (who : Nat) (took : Bool) (error : String)
  | handlerReturns (who : Nat) (response : α)
  | handlerThrows (who : Nat) (error : String)
  | dies (who : Nat)
deriving DecidableEq, Repr

def Keeper.advance (leaseMs : Nat) (s : Keeper α) : Event α → Keeper α
  | .wait ms => {s with now:=s.now + ms}
  | .deliver who => match s.workers who with
    | .undelivered => s.set who .inserting
    | _ => s
  | .go who => s.go leaseMs who
  | .breaks who took error => s.breaks leaseMs who took error
  | .handlerReturns who response => match s.workers who with
    | .running since => {s.set who (.returned since response) with returns:=s.returns+1}
    | _ => s
  | .handlerThrows who error => match s.workers who with
    | .running since => s.set who (.failing (some since) false error)
    | _ => s
  | .dies who => {s.set who .dead with abandoned:=s.abandoned || (s.workers who).unmarked}
def Keeper.run (leaseMs : Nat) (s : Keeper α) (events : List (Event α)) : Keeper α := events.foldl (Keeper.advance leaseMs) s
def fresh (now : Nat) : Keeper α := ⟨none,now,fun _ => .undelivered,0,0,false⟩

-- No execution outlives its lease: a delivery that took it at `since` has recorded the
-- handler's end, or died, before the lease is over.
def WithinLease (leaseMs : Nat) (s : Keeper α) : Prop := ∀ who since,(s.workers who).since = some since → s.now ≤ since + leaseMs
-- A completion is recorded and the same delivery goes on to its catch block.
def Spoils (s : Keeper α) : Event α → Prop
  | .breaks who took _ => (∃ since response,s.workers who = .returned since response ∧ took = true) ∨
      ∃ response,s.workers who = .acking response
  | _ => False

def unsettled : Option (KeyRecord α) → Bool
  | none | some (.inProgress _) => true
  | _ => false
-- The delivery's own completion is on record.
def Worker.marked : Worker α → Bool
  | .acking _ | .failing none _ _ => true
  | _ => false

structure Held (s : Keeper α) : Prop where
  owner : ∀ who since,(s.workers who).since = some since → s.record = some (.inProgress since)
  sole : ∀ first second,(s.workers first).since.isSome = true → (s.workers second).since.isSome = true → first = second
  asked : ∀ who asked,s.workers who = .reclaiming asked → asked ≤ s.now
  present : ∀ who,s.workers who = .looking → s.record.isSome = true
  marked : ∀ who,(s.workers who).marked = true → unsettled s.record = false
  once : s.completions ≤ 1
  none : unsettled s.record = true → s.completions = 0
  ran : s.abandoned = false → s.returns ≤ 1
  unran : s.abandoned = false → unsettled s.record = true → (∀ who,(s.workers who).unmarked = false) → s.returns = 0

theorem fresh_held (now : Nat) : Held (fresh now : Keeper α) := by
  constructor <;> simp [fresh,Worker.since,Worker.marked]

theorem unmarked_since {worker : Worker α} (unmarked : worker.unmarked = true) : worker.since.isSome = true := by
  cases worker with
  | returned since response => rfl
  | failing since ran error =>
    cases since with
    | none => cases unmarked
    | some since => rfl
  | _ => cases unmarked

section Steps
variable {s : Keeper α} {who : Nat}

theorem set_same (s : Keeper α) (who : Nat) (worker : Worker α) : (s.set who worker).workers who = worker := by simp [Keeper.set]
theorem set_other (s : Keeper α) (worker : Worker α) (apart : other ≠ who) : (s.set who worker).workers other = s.workers other := by
  simp [Keeper.set,apart]

-- Who executes alone has the record in progress under its own lease.
theorem alone (held : Held s) (mine : (s.workers who).since = some since) (apart : other ≠ who) : (s.workers other).since = none := by
  cases theirs : (s.workers other).since with
  | none => rfl
  | some time => exact absurd (held.sole other who (by simp [theirs]) (by simp [mine])) apart

-- A move that touches neither the record nor a lease.
structure Quiet (s : Keeper α) (who : Nat) (worker : Worker α) : Prop where
  since : worker.since = none ∨ worker.since = (s.workers who).since
  asked : ∀ asked,worker = .reclaiming asked → asked ≤ s.now
  present : worker = .looking → s.record.isSome = true
  marked : worker.marked = true → unsettled s.record = false
  unmarked : s.abandoned = false → (s.workers who).unmarked = true → worker.unmarked = true

theorem set_held (held : Held s) {worker : Worker α} (quiet : Quiet s who worker) : Held (s.set who worker) := by
  have kept : ∀ other since,((s.set who worker).workers other).since = some since → (s.workers other).since = some since := by
    intro other since now
    by_cases same : other = who
    · subst same
      rw [set_same] at now
      rcases quiet.since with gone | same
      · rw [gone] at now
        cases now
      · rw [←same,now]
    · rwa [set_other _ _ same] at now
  refine {owner:=?_,sole:=?_,asked:=?_,present:=?_,marked:=?_,once:=held.once,none:=held.none,ran:=held.ran,unran:=?_}
  · intro other since now
    exact held.owner other since (kept other since now)
  · intro first second one two
    obtain ⟨time,here⟩ := Option.isSome_iff_exists.mp one
    obtain ⟨moment,there⟩ := Option.isSome_iff_exists.mp two
    exact held.sole first second (by rw [kept first time here]; rfl) (by rw [kept second moment there]; rfl)
  · intro other asked now
    by_cases same : other = who
    · subst same
      rw [set_same] at now
      exact quiet.asked asked now
    · rw [set_other _ _ same] at now
      exact held.asked other asked now
  · intro other now
    by_cases same : other = who
    · subst same
      rw [set_same] at now
      exact quiet.present now
    · rw [set_other _ _ same] at now
      exact held.present other now
  · intro other now
    by_cases same : other = who
    · subst same
      rw [set_same] at now
      exact quiet.marked now
    · rw [set_other _ _ same] at now
      exact held.marked other now
  · intro kept isOpen clear
    apply held.unran kept isOpen
    intro other
    by_cases same : other = who
    · subst same
      have now := clear other
      rw [set_same] at now
      by_contra before
      rw [quiet.unmarked kept (by simpa using before)] at now
      cases now
    · have now := clear other
      rwa [set_other _ _ same] at now

-- The key is reserved, by a delivery that goes on with it or by one that does not hear of it.
theorem take_held (held : Held s) {worker : Worker α} (idle : ∀ other,(s.workers other).since = none) (isOpen : unsettled s.record = true)
    (own : worker.since = none ∨ worker.since = some s.now) (unmarked : worker.marked = false)
    (begun : ∀ asked,worker ≠ .reclaiming asked) :
    Held {s.set who worker with record:=some (.inProgress s.now)} := by
  have clear : ∀ other,(s.workers other).unmarked = false := by
    intro other
    by_contra ran
    have since := unmarked_since (by simpa using ran : (s.workers other).unmarked = true)
    rw [idle other] at since
    cases since
  refine {owner:=?_,sole:=?_,asked:=?_,present:=fun _ _ => rfl,marked:=?_,once:=held.once,none:=fun _ => held.none isOpen,ran:=held.ran,unran:=?_}
  · intro other since now
    by_cases same : other = who
    · subst same
      rw [set_same] at now
      rcases own with none | mine
      · rw [none] at now
        cases now
      · rw [mine] at now
        cases now
        rfl
    · rw [set_other _ _ same,idle other] at now
      cases now
  · intro first second one two
    have here : ∀ other,((s.set who worker).workers other).since.isSome = true → other = who := by
      intro other some
      by_contra apart
      rw [set_other _ _ apart,idle other] at some
      cases some
    rw [here first one,here second two]
  · intro other asked now
    by_cases same : other = who
    · subst same
      rw [set_same] at now
      exact absurd now (begun asked)
    · rw [set_other _ _ same] at now
      exact held.asked other asked now
  · intro other now
    by_cases same : other = who
    · subst same
      rw [set_same,unmarked] at now
      cases now
    · rw [set_other _ _ same] at now
      have settled := held.marked other now
      rw [isOpen] at settled
      cases settled
  · intro kept _ _
    exact held.unran kept isOpen clear

-- The handler's end is recorded: nothing is in progress any more.
theorem seal_held (held : Held s) {worker : Worker α} {record : Option (KeyRecord α)} {count : Nat}
    (idle : ∀ other,other ≠ who → (s.workers other).since = none) (present : record.isSome = true) (settled : unsettled record = false)
    (ended : worker.since = none) (begun : ∀ asked,worker ≠ .reclaiming asked) (once : count ≤ 1) :
    Held {s.set who worker with record:=record,completions:=count} := by
  have nobody : ∀ other,((s.set who worker).workers other).since = none := by
    intro other
    by_cases same : other = who
    · subst same
      rw [set_same,ended]
    · rw [set_other _ _ same,idle other same]
  refine {owner:=?_,sole:=?_,asked:=?_,present:=fun _ _ => present,marked:=fun _ _ => settled,once:=once,none:=?_,ran:=held.ran,unran:=?_}
  · intro other since now
    rw [nobody other] at now
    cases now
  · intro first second one
    rw [nobody first] at one
    cases one
  · intro other asked now
    by_cases same : other = who
    · subst same
      rw [set_same] at now
      exact absurd now (begun asked)
    · rw [set_other _ _ same] at now
      exact held.asked other asked now
  · intro isOpen
    rw [settled] at isOpen
    cases isOpen
  · intro _ isOpen
    rw [settled] at isOpen
    cases isOpen

theorem complete_held (held : Held s) (mine : (s.workers who).since = some since) (response : α) {worker : Worker α}
    (ended : worker.since = none) (begun : ∀ asked,worker ≠ .reclaiming asked) : Held ((s.complete response).set who worker) := by
  have record := held.owner who since mine
  have none : s.completions = 0 := held.none (by rw [record]; rfl)
  exact seal_held held (fun other apart => alone held mine apart) (by simp [Keeper.complete,record])
    (by simp [Keeper.complete,record,unsettled]) ended begun (by simp [Keeper.complete,none])

theorem unsettled_idle (held : Held s) (settled : unsettled s.record = false) (other : Nat) : (s.workers other).since = none := by
  cases since : (s.workers other).since with
  | none => rfl
  | some time =>
    rw [held.owner other time since] at settled
    cases settled

theorem fail_held (held : Held s) (failing : s.workers who = .failing since ran error) (cause text : String) :
    Held ((s.fail cause).set who (.threw text)) := by
  cases since with
  | some since =>
    have mine : (s.workers who).since = some since := by rw [failing]; rfl
    have record := held.owner who since mine
    exact seal_held held (fun other apart => alone held mine apart) (by simp [Keeper.fail,record])
      (by simp [Keeper.fail,record,unsettled]) rfl (by simp) held.once
  | none =>
    have settled := held.marked who (by rw [failing]; rfl)
    have recorded : ∃ record,s.record = some record := by
      cases found : s.record with
      | none => rw [found] at settled; cases settled
      | some record => exact ⟨record,rfl⟩
    obtain ⟨record,found⟩ := recorded
    exact seal_held held (fun other _ => unsettled_idle held settled other) (by simp [Keeper.fail,found])
      (by simp [Keeper.fail,found,unsettled]) rfl (by simp) held.once

-- A lease that may be taken over is nobody's: its owner would have outlived it.
theorem reclaims_idle (held : Held s) (within : WithinLease leaseMs s) (asked : s.workers who = .reclaiming moment)
    (stale : reclaims leaseMs moment s.record = true) : unsettled s.record = true ∧ ∀ other,(s.workers other).since = none := by
  have early := held.asked who moment asked
  unfold reclaims at stale
  split at stale
  · rename_i createdAt record
    refine ⟨by rw [record]; rfl,?_⟩
    intro other
    cases since : (s.workers other).since with
    | none => rfl
    | some time =>
      have mine := held.owner other time since
      have alive := within other time since
      rw [record] at mine
      cases mine
      simp only [decide_eq_true_eq] at stale
      omega
  · cases stale

theorem quiet_end {worker : Worker α} (since : worker.since = none) (begun : ∀ asked,worker ≠ .reclaiming asked)
    (looks : worker ≠ .looking) (unmarked : worker.marked = false) (kept : s.abandoned = false → (s.workers who).unmarked = false) :
    Quiet s who worker := by
  refine ⟨.inl since,?_,?_,?_,?_⟩
  · exact fun asked now => absurd now (begun asked)
  · exact fun now => absurd now looks
  · intro now
    rw [unmarked] at now
    cases now
  · intro here now
    rw [kept here] at now
    cases now

-- A delivery stops where it is; a return it had not recorded is left without a mark.
theorem leave_held (held : Held s) {worker : Worker α} (since : worker.since = none) (begun : ∀ asked,worker ≠ .reclaiming asked)
    (looks : worker ≠ .looking) (unmarked : worker.marked = false) :
    Held {s.set who worker with abandoned:=s.abandoned || (s.workers who).unmarked} := by
  have flagged : Held {s with abandoned:=s.abandoned || (s.workers who).unmarked} := by
    refine {held with ran:=?_,unran:=?_}
    · intro kept
      exact held.ran (Bool.or_eq_false_iff.mp kept).1
    · intro kept
      exact held.unran (Bool.or_eq_false_iff.mp kept).1
  exact set_held flagged (quiet_end since begun looks unmarked fun kept => (Bool.or_eq_false_iff.mp kept).2)

theorem go_held (held : Held s) (within : WithinLease leaseMs s) (who : Nat) : Held (s.go leaseMs who) := by
  unfold Keeper.go
  cases phase : s.workers who with
  | inserting =>
    dsimp only
    split
    · rename_i none
      have missing := Option.isNone_iff_eq_none.mp none
      refine take_held held ?_ (by rw [missing]; rfl) (.inr rfl) rfl (by simp)
      intro other
      cases since : (s.workers other).since with
      | none => rfl
      | some time =>
        rw [held.owner other time since] at missing
        cases missing
    · rename_i some
      refine set_held held ⟨.inl rfl,by simp,fun _ => Option.isSome_iff_ne_none.mpr (by simpa using some),by simp [Worker.marked],?_⟩
      simp [phase,Worker.unmarked]
  | looking =>
    dsimp only
    have present := held.present who phase
    split
    · rename_i missing
      rw [missing] at present
      cases present
    · exact set_held held (quiet_end rfl (by simp) (by simp) rfl fun _ => by rw [phase]; rfl)
    · exact set_held held (quiet_end rfl (by simp) (by simp) rfl fun _ => by rw [phase]; rfl)
    · exact set_held held (quiet_end rfl (by simp) (by simp) rfl fun _ => by rw [phase]; rfl)
  | found createdAt =>
    dsimp only
    split
    · refine set_held held ⟨.inl rfl,?_,by simp,by simp [Worker.marked],by simp [phase,Worker.unmarked]⟩
      intro asked same
      cases same
      exact Nat.le_refl _
    · exact set_held held (quiet_end rfl (by simp) (by simp) rfl fun _ => by rw [phase]; rfl)
  | reclaiming asked =>
    dsimp only
    split
    · rename_i stale
      obtain ⟨isOpen,idle⟩ := reclaims_idle held within phase stale
      exact take_held held idle isOpen (.inr rfl) rfl (by simp)
    · exact set_held held (quiet_end rfl (by simp) (by simp) rfl fun _ => by rw [phase]; rfl)
  | returned since response => exact complete_held held (by rw [phase]; rfl) response rfl (by simp)
  | acking response => exact set_held held (quiet_end rfl (by simp) (by simp) rfl fun _ => by rw [phase]; rfl)
  | failing since ran error => exact fail_held held phase error error
  | _ => exact held

theorem breaks_held (held : Held s) (within : WithinLease leaseMs s) (who : Nat) (took : Bool) (error : String) :
    Held (s.breaks leaseMs who took error) := by
  unfold Keeper.breaks
  cases phase : s.workers who with
  | inserting =>
    dsimp only
    split
    · rename_i missing
      have none := Option.isNone_iff_eq_none.mp (Bool.and_eq_true_iff.mp missing).2
      refine take_held held ?_ (by rw [none]; rfl) (.inl rfl) rfl (by simp)
      intro other
      cases since : (s.workers other).since with
      | none => rfl
      | some time =>
        rw [held.owner other time since] at none
        cases none
    · exact set_held held (quiet_end rfl (by simp) (by simp) rfl fun _ => by rw [phase]; rfl)
  | looking => exact set_held held (quiet_end rfl (by simp) (by simp) rfl fun _ => by rw [phase]; rfl)
  | reclaiming asked =>
    dsimp only
    split
    · rename_i stale
      obtain ⟨isOpen,idle⟩ := reclaims_idle held within phase (Bool.and_eq_true_iff.mp stale).2
      exact take_held held idle isOpen (.inl rfl) rfl (by simp)
    · exact set_held held (quiet_end rfl (by simp) (by simp) rfl fun _ => by rw [phase]; rfl)
  | returned since response =>
    dsimp only
    split
    · exact complete_held held (by rw [phase]; rfl) response rfl (by simp)
    · exact set_held held ⟨.inr (by rw [phase]; rfl),by simp,by simp,by simp [Worker.marked],fun _ _ => rfl⟩
  | acking response =>
    have settled := held.marked who (by rw [phase]; rfl)
    exact set_held held ⟨.inl rfl,by simp,by simp,fun _ => settled,by simp [phase,Worker.unmarked]⟩
  | failing since ran cause =>
    dsimp only
    split
    · exact fail_held held phase cause error
    · have left : Held {s.set who (.threw error) with abandoned:=s.abandoned || (s.workers who).unmarked} :=
        leave_held held rfl (by simp) (by simp) rfl
      have same : (s.workers who).unmarked = (since.isSome && ran) := by
        rw [phase]
        cases since with
        | none => rfl
        | some time => rfl
      rwa [same] at left
  | _ => exact held

theorem advance_held (held : Held s) (within : WithinLease leaseMs s) (event : Event α) : Held (s.advance leaseMs event) := by
  cases event with
  | wait ms => exact {held with asked:=fun who asked now => Nat.le_add_right_of_le (held.asked who asked now)}
  | deliver who =>
    unfold Keeper.advance
    dsimp only
    split
    · rename_i phase
      exact set_held held (quiet_end rfl (by simp) (by simp) rfl fun _ => by rw [phase]; rfl)
    · exact held
  | go who => exact go_held held within who
  | breaks who took error => exact breaks_held held within who took error
  | handlerReturns who response =>
    unfold Keeper.advance
    dsimp only
    split
    · rename_i since phase
      have mine : (s.workers who).since = some since := by rw [phase]; rfl
      have moved : Held (s.set who (.returned since response)) :=
        set_held held ⟨.inr mine.symm,by simp,by simp,by simp [Worker.marked],fun _ _ => rfl⟩
      have isOpen : unsettled s.record = true := by rw [held.owner who since mine]; rfl
      have first : s.abandoned = false → s.returns = 0 := by
        intro kept
        apply held.unran kept isOpen
        intro other
        by_cases same : other = who
        · rw [same,phase]
          rfl
        · by_contra ran
          have since := unmarked_since (by simpa using ran : (s.workers other).unmarked = true)
          rw [alone held mine same] at since
          cases since
      refine {moved with ran:=?_,unran:=?_}
      · intro kept
        have none := first kept
        dsimp only
        omega
      · intro _ _ clear
        have now := clear who
        rw [show ({s.set who (.returned since response) with returns:=s.returns+1} : Keeper α).workers who =
          .returned since response from set_same s who _] at now
        cases now
    · exact held
  | handlerThrows who error =>
    unfold Keeper.advance
    dsimp only
    split
    · rename_i since phase
      have mine : (s.workers who).since = some since := by rw [phase]; rfl
      exact set_held held ⟨.inr mine.symm,by simp,by simp,by simp [Worker.marked],by simp [phase,Worker.unmarked]⟩
    · exact held
  | dies who => exact leave_held held rfl (by simp) (by simp) rfl

end Steps

theorem run_held {s : Keeper α} (held : Held s) {events : List (Event α)}
    (within : ∀ before after,events = before ++ after → WithinLease leaseMs (s.run leaseMs before)) : Held (s.run leaseMs events) := by
  induction events generalizing s with
  | nil => exact held
  | cons event rest ih =>
    apply ih (advance_held held (within [] (event :: rest) rfl) event)
    intro before after split
    exact within (event :: before) after (by rw [split]; rfl)

-- While a completed record is not spoilt, nobody runs the handler and whoever asks is given
-- the stored response.
def Worker.answersWith (response : α) : Worker α → Prop
  | .undelivered | .inserting | .looking | .threw _ | .dead => True
  | .cached stored => stored = response
  | _ => False
structure Answering (response : α) (asks : Nat → Prop) (s : Keeper α) : Prop where
  record : s.record = some (.completed response)
  later : ∀ who,asks who → (s.workers who).answersWith response
-- No delivery whose completion is on record is in its catch block.
def Clean (s : Keeper α) : Prop := ∀ who ran error,s.workers who ≠ .failing none ran error

section Replies
variable {s : Keeper α} {response : α} {asks : Nat → Prop}

theorem set_clean (clean : Clean s) {worker : Worker α} (other : ∀ ran error,worker ≠ .failing none ran error) (who : Nat) :
    Clean (s.set who worker) := by
  intro someone ran error now
  by_cases same : someone = who
  · subst same
    rw [set_same] at now
    exact other ran error now
  · rw [set_other _ _ same] at now
    exact clean someone ran error now

theorem advance_clean (clean : Clean s) {event : Event α} (spoils : ¬Spoils s event) : Clean (s.advance leaseMs event) := by
  cases event with
  | wait ms => exact clean
  | deliver who =>
    unfold Keeper.advance
    dsimp only
    split
    · exact set_clean clean (by simp) who
    · exact clean
  | go who =>
    unfold Keeper.advance Keeper.go
    dsimp only
    split
    all_goals try split
    all_goals first | exact clean | exact set_clean clean (by simp) who
  | breaks who took error =>
    unfold Keeper.advance Keeper.breaks
    dsimp only
    split
    case h_4 since answer phase =>
      split
      · rename_i took
        exact absurd (.inl ⟨since,answer,phase,took⟩) spoils
      · exact set_clean clean (by simp) who
    case h_5 answer phase => exact absurd (.inr ⟨answer,phase⟩) spoils
    all_goals try split
    all_goals first | exact clean | exact set_clean clean (by simp) who
  | handlerReturns who answer =>
    unfold Keeper.advance
    dsimp only
    split
    · exact set_clean clean (by simp) who
    · exact clean
  | handlerThrows who error =>
    unfold Keeper.advance
    dsimp only
    split
    · exact set_clean clean (by simp) who
    · exact clean
  | dies who => exact set_clean clean (by simp) who

theorem set_answering (answering : Answering response asks s) {worker : Worker α} (mine : asks who → worker.answersWith response) :
    Answering response asks (s.set who worker) := by
  refine ⟨answering.record,?_⟩
  intro someone asked
  by_cases same : someone = who
  · subst same
    rw [set_same]
    exact mine asked
  · rw [set_other _ _ same]
    exact answering.later someone asked

-- With the completion on record nobody is executing.
theorem completed_idle (held : Held s) (answering : Answering response asks s) (who : Nat) : (s.workers who).since = none :=
  unsettled_idle held (by rw [answering.record]; rfl) who

theorem idle_handler {s : Keeper α} {who : Nat} (idle : (s.workers who).since = none) :
    (∀ {answer},s.advance leaseMs (.handlerReturns who answer) = s) ∧ ∀ {error},s.advance leaseMs (.handlerThrows who error) = s := by
  simp only [Keeper.advance]
  cases phase : s.workers who with
  | running since =>
    rw [phase] at idle
    cases idle
  | _ => simp

theorem go_answering (held : Held s) (clean : Clean s) (answering : Answering response asks s) (who : Nat) :
    Answering response asks (s.go leaseMs who) := by
  have idle := completed_idle held answering who
  have later := answering.later who
  unfold Keeper.go
  cases phase : s.workers who with
  | inserting =>
    dsimp only
    split
    · rename_i none
      rw [answering.record] at none
      cases none
    · exact set_answering answering fun _ => trivial
  | looking =>
    dsimp only
    rw [answering.record]
    exact set_answering answering fun _ => rfl
  | found createdAt =>
    rw [phase] at later
    dsimp only
    split
    · exact set_answering answering fun asked => (later asked).elim
    · exact set_answering answering fun asked => (later asked).elim
  | reclaiming asked =>
    rw [phase] at later
    dsimp only
    rw [answering.record]
    exact set_answering answering fun asked => (later asked).elim
  | returned since answer =>
    rw [phase] at idle
    cases idle
  | acking answer =>
    rw [phase] at later
    exact set_answering answering fun asked => (later asked).elim
  | failing since ran error =>
    rw [phase] at idle
    cases since with
    | none => exact absurd phase (clean who ran error)
    | some since => cases idle
  | _ => exact answering

theorem breaks_answering (held : Held s) (clean : Clean s) (answering : Answering response asks s)
    (spoils : ¬Spoils s (.breaks who took error)) : Answering response asks (s.breaks leaseMs who took error) := by
  have idle := completed_idle held answering who
  unfold Keeper.breaks
  cases phase : s.workers who with
  | inserting =>
    dsimp only
    split
    · rename_i none
      rw [answering.record] at none
      simp at none
    · exact set_answering answering fun _ => trivial
  | looking => exact set_answering answering fun _ => trivial
  | reclaiming asked =>
    dsimp only
    split
    · rename_i stale
      rw [answering.record] at stale
      simp [reclaims] at stale
    · exact set_answering answering fun _ => trivial
  | returned since answer =>
    rw [phase] at idle
    cases idle
  | acking answer => exact absurd (.inr ⟨answer,phase⟩) spoils
  | failing since ran cause =>
    rw [phase] at idle
    cases since with
    | none => exact absurd phase (clean who ran cause)
    | some since => cases idle
  | _ => exact answering

theorem advance_answering (held : Held s) (clean : Clean s) (answering : Answering response asks s) {event : Event α}
    (spoils : ¬Spoils s event) : Answering response asks (s.advance leaseMs event) := by
  cases event with
  | wait ms => exact ⟨answering.record,answering.later⟩
  | deliver who =>
    unfold Keeper.advance
    dsimp only
    split
    · exact set_answering answering fun _ => trivial
    · exact answering
  | go who => exact go_answering held clean answering who
  | breaks who took error => exact breaks_answering held clean answering spoils
  -- Once the record is completed no handler is running.
  | handlerReturns who answer =>
    rw [(idle_handler (completed_idle held answering who)).1]
    exact answering
  | handlerThrows who error =>
    rw [(idle_handler (completed_idle held answering who)).2]
    exact answering
  | dies who =>
    have left : Answering response asks (s.set who .dead) := set_answering answering fun _ => trivial
    exact ⟨left.record,left.later⟩

end Replies

-- Every event of the run leaves the catch block to handler errors.
def Unspoilt (leaseMs : Nat) (s : Keeper α) (events : List (Event α)) : Prop :=
  ∀ before event after,events = before ++ event :: after → ¬Spoils (s.run leaseMs before) event

theorem unspoilt_tail {s : Keeper α} (unspoilt : Unspoilt leaseMs s (event :: rest)) :
    Unspoilt leaseMs (s.advance leaseMs event) rest := by
  intro before other after split
  exact unspoilt (event :: before) other after (by rw [split]; rfl)

theorem run_clean {s : Keeper α} (clean : Clean s) {events : List (Event α)} (unspoilt : Unspoilt leaseMs s events) :
    Clean (s.run leaseMs events) := by
  induction events generalizing s with
  | nil => exact clean
  | cons event rest ih => exact ih (advance_clean clean (unspoilt [] event rest rfl)) (unspoilt_tail unspoilt)

theorem run_answering {s : Keeper α} (held : Held s) (clean : Clean s) {response : α} {asks : Nat → Prop}
    (answering : Answering response asks s) {events : List (Event α)}
    (within : ∀ before after,events = before ++ after → WithinLease leaseMs (s.run leaseMs before))
    (unspoilt : Unspoilt leaseMs s events) : Answering response asks (s.run leaseMs events) := by
  induction events generalizing s with
  | nil => exact answering
  | cons event rest ih =>
    have spoils := unspoilt [] event rest rfl
    apply ih (advance_held held (within [] (event :: rest) rfl) event) (advance_clean clean spoils)
      (advance_answering held clean answering spoils)
    · intro before after split
      exact within (event :: before) after (by rw [split]; rfl)
    · exact unspoilt_tail unspoilt

theorem run_append (leaseMs : Nat) (s : Keeper α) (before after : List (Event α)) :
    s.run leaseMs (before ++ after) = (s.run leaseMs before).run leaseMs after := List.foldl_append

-- Nobody else executes, the completion is recorded once, and from then on every delivery that
-- begins is answered with the stored response.
theorem lease_exclusive {leaseMs now : Nat} {events : List (Event α)}
    (within : ∀ before after,events = before ++ after → WithinLease leaseMs ((fresh now).run leaseMs before))
    (unspoilt : Unspoilt leaseMs (fresh now) events) :
    (∀ first second,(((fresh now).run leaseMs events).workers first).since.isSome = true →
      (((fresh now).run leaseMs events).workers second).since.isSome = true → first = second) ∧
    ((fresh now).run leaseMs events).completions ≤ 1 ∧
    (((fresh now).run leaseMs events).abandoned = false → ((fresh now).run leaseMs events).returns ≤ 1) ∧
    ∀ before after response,events = before ++ after → ((fresh now).run leaseMs before).record = some (.completed response) →
      ((fresh now).run leaseMs events).record = some (.completed response) ∧
      (∀ who,(((fresh now).run leaseMs events).workers who).since = none) ∧
      ∀ who,((fresh now).run leaseMs before).workers who = .undelivered →
        (((fresh now).run leaseMs events).workers who).answersWith response := by
  have held := run_held (fresh_held now) within
  refine ⟨held.sole,held.once,held.ran,?_⟩
  intro before after response split completed
  have early : Held ((fresh now).run leaseMs before) := by
    apply run_held (fresh_held now)
    intro first last part
    exact within first (last ++ after) (by rw [split,part,List.append_assoc])
  have clean : Clean ((fresh now).run leaseMs before) := by
    apply run_clean (fun _ _ _ impossible => by cases impossible)
    intro first event last part
    exact unspoilt first event (last ++ after) (by rw [split,part]; simp)
  have asked : Answering response (fun who => ((fresh now).run leaseMs before).workers who = .undelivered)
      ((fresh now).run leaseMs before) := by
    refine ⟨completed,?_⟩
    intro who begins
    rw [begins]
    trivial
  have answering : Answering response (fun who => ((fresh now).run leaseMs before).workers who = .undelivered)
      (((fresh now).run leaseMs before).run leaseMs after) := by
    apply run_answering early clean asked
    · intro first last part
      have here := within (before ++ first) last (by rw [split,part,List.append_assoc])
      rwa [run_append] at here
    · intro first event last part
      have here := unspoilt (before ++ first) event last (by rw [split,part]; simp)
      rwa [run_append] at here
  rw [←run_append,←split] at answering
  exact ⟨answering.record,completed_idle held answering,answering.later⟩

def Event.mentions (who : Nat) : Event α → Bool
  | .wait _ => false
  | .deliver other | .go other | .breaks other _ _ | .handlerReturns other _ | .handlerThrows other _ | .dies other => other == who

theorem set_apart (s : Keeper α) (worker : Worker α) (apart : (other == who) = false) : (s.set other worker).workers who = s.workers who :=
  set_other s worker fun same => by simp [same] at apart

theorem advance_apart {s : Keeper α} {event : Event α} (apart : event.mentions who = false) :
    (s.advance leaseMs event).workers who = s.workers who := by
  cases event with
  | wait ms => rfl
  | deliver other =>
    unfold Keeper.advance
    dsimp only
    split
    · exact set_apart s _ apart
    · rfl
  | go other =>
    unfold Keeper.advance Keeper.go
    dsimp only
    split
    all_goals try split
    all_goals first | rfl | exact set_apart _ _ apart
  | breaks other took error =>
    unfold Keeper.advance Keeper.breaks
    dsimp only
    split
    all_goals try split
    all_goals first | rfl | exact set_apart _ _ apart
  | handlerReturns other response =>
    unfold Keeper.advance
    dsimp only
    split
    · exact set_apart s _ apart
    · rfl
  | handlerThrows other error =>
    unfold Keeper.advance
    dsimp only
    split
    · exact set_apart s _ apart
    · rfl
  | dies other => exact set_apart s _ apart

theorem run_apart {s : Keeper α} {events : List (Event α)} (apart : ∀ event ∈ events,event.mentions who = false) :
    (s.run leaseMs events).workers who = s.workers who := by
  induction events generalizing s with
  | nil => rfl
  | cons event rest ih =>
    exact (ih fun other member => apart other (List.mem_cons_of_mem _ member)).trans (advance_apart (apart event List.mem_cons_self))

-- The first worker dies in its handler; the second takes the lease over when it is stale while
-- a third is turned away; a fourth is given the stored response.
def takeover : List (Event String) :=
  [.deliver 0,.go 0,.dies 0,.wait 30001,.deliver 1,.go 1,.go 1,.go 1,.deliver 2,.go 2,.go 1,.go 2,.go 2,
   .handlerReturns 1 "ok",.go 1,.go 1,.deliver 3,.go 3,.go 3]
def withinLeaseUpTo (leaseMs workers : Nat) (s : Keeper String) : Bool :=
  (List.range workers).all fun who => ((s.workers who).since).all fun since => s.now ≤ since + leaseMs

theorem lease_exclusive_takeover :
    ((fresh 1000).run 30000 takeover).workers 3 = .cached "ok" ∧ ((fresh 1000).run 30000 takeover).workers 2 = .requeued ∧
    ((fresh 1000).run 30000 takeover).completions ≤ 1 := by
  refine ⟨by decide,by decide,?_⟩
  have checked : ∀ n ∈ List.range 20,withinLeaseUpTo 30000 4 ((fresh 1000).run 30000 (takeover.take n)) = true := by decide
  have four : ∀ event ∈ takeover,∀ who,4 ≤ who → event.mentions who = false := by
    intro event member who high
    simp only [takeover,List.mem_cons,List.not_mem_nil,or_false] at member
    rcases member with rfl | rfl | rfl | rfl | rfl | rfl | rfl | rfl | rfl | rfl | rfl | rfl | rfl | rfl | rfl | rfl | rfl | rfl | rfl <;>
      first | rfl | exact beq_false_of_ne (by omega)
  have unbroken : ∀ event ∈ takeover,∀ who took error,event ≠ .breaks who took error := by
    simp [takeover]
  refine (lease_exclusive ?_ ?_).2.1
  · intro before after split who since mine
    have short : before = takeover.take before.length := by rw [split,List.take_left]
    have length : before.length ≤ 19 := by
      have whole := congrArg List.length split
      simp [takeover] at whole
      omega
    by_cases low : who < 4
    · have found := checked before.length (List.mem_range.mpr (by omega))
      rw [←short] at found
      have here := List.all_eq_true.mp found who (List.mem_range.mpr low)
      rw [mine] at here
      simpa using here
    · have idle : ((fresh 1000).run 30000 before).workers who = .undelivered := by
        apply run_apart
        intro event member
        exact four event (by rw [split]; exact List.mem_append_left _ member) who (by omega)
      rw [idle] at mine
      cases mine
  · intro before event after split spoils
    have member : event ∈ takeover := by rw [split]; simp
    cases event with
    | breaks who took error => exact unbroken _ member who took error rfl
    | _ => exact spoils

-- The channel closes while the handler runs: the completion is recorded, then the ack throws,
-- and the catch block overwrites the completed record.
def closedChannel : List (Event String) :=
  [.deliver 0,.go 0,.handlerReturns 0 "ok",.go 0,.breaks 0 false "Channel closed",.go 0,.deliver 1,.go 1,.go 1]

theorem completed_then_refused :
    ((fresh 1000).run 30000 (closedChannel.take 4)).record = some (.completed "ok") ∧
    ((fresh 1000).run 30000 (closedChannel.take 4)).workers 1 = .undelivered ∧
    ((fresh 1000).run 30000 closedChannel).now = 1000 ∧
    ((fresh 1000).run 30000 closedChannel).workers 1 = .refused "Channel closed" := by
  decide

end Elchi.Idempotency

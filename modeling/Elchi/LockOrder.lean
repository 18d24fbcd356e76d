import Mathlib.Logic.Relation
import Elchi.LockedRuns
namespace Elchi.RowLock
variable {V J N R : Type}

-- A row above every row that is held.
def Above (rank : V → Nat) (row : V) (held : List (Held V J)) : Prop := ∀ h ∈ held,∀ other,h.row = some other → rank other < rank row
def Ascending (rank : V → Nat) : List (Held V J) → Prop
  | [] => True
  | last :: earlier => (∀ row,last.row = some row → Above rank row earlier) ∧ Ascending rank earlier

-- A program that locks rows of rising rank only, and writes under keys it holds.
def Climbs (rank : V → Nat) : Prog V J N R → List (Held V J) → Prop
  | .done _,_ => True
  | .halt,_ => True
  | .find _ next,held => ∀ rows,Climbs rank (next rows) held
  | .lock sel next,held => Climbs rank (next none) held ∧ ∀ key row rows,sel key row = true →
      Above rank row held ∧ Climbs rank (next (some (key,row,rows))) (⟨key,some row,rows⟩ :: held)
  | .fresh next,held => ∀ key,Climbs rank (next key) (⟨key,none,[]⟩ :: held)
  | .commit _ writes entries next,held => (∀ write ∈ writes,∃ h ∈ held,h.key = write.key) ∧
      (∀ entry ∈ entries,∃ h ∈ held,h.key = entry.1) ∧ Climbs rank next []

-- A key that the session's next step needs, and the sessions that hold it.
def Wants (m : Machine V J N R) (s : Session V J N R) (key : Nat) : Prop :=
  (∃ sel next row,s.prog = .lock sel next ∧ (key,row) ∈ m.table.select sel) ∨
  ∃ note writes entries next,s.prog = .commit note writes entries next ∧ ∃ write ∈ writes,write.key = key
def Waits (m : Machine V J N R) (who other : Nat) : Prop :=
  who ≠ other ∧ ∃ s t key,m.sessions[who]? = some s ∧ m.sessions[other]? = some t ∧ Wants m s key ∧ t.owns key = true
def Deadlocked (m : Machine V J N R) : Prop := ∃ who,Relation.TransGen (Waits m) who who

def FreeCommit : Guarantee V J N := fun _ _ _ _ _ => True
def FreeReply : Reply N R := fun _ _ => True

structure Machine.Climbing (rank : V → Nat) (m : Machine V J N R) : Prop where
  sound : m.Sound Anything (fun _ => FreeCommit) fun _ => FreeReply
  climbs : ∀ (who : Nat) (s : Session V J N R),m.sessions[who]? = some s → Climbs rank s.prog s.held
  ascending : ∀ (who : Nat) (s : Session V J N R),m.sessions[who]? = some s → Ascending rank s.held

theorem commit_nothing_climbs {next : Prog V J N R} (continues : Climbs rank next []) (held : List (Held V J)) (note : N) :
    Climbs rank (.commit note [] [] next) held :=
  ⟨fun _ absent => absurd absent List.not_mem_nil,fun _ absent => absurd absent List.not_mem_nil,continues⟩

theorem climbs_reply {S : Type} (f : R → S) {prog : Prog V J N R} {held : List (Held V J)} (climbs : Climbs rank prog held) :
    Climbs rank (prog.reply f) held := by
  induction prog generalizing held with
  | done answer => trivial
  | halt => trivial
  | find sel next ih => exact fun rows => ih _ (climbs rows)
  | lock sel next ih =>
    refine ⟨ih _ climbs.1,fun key row rows selected => ?_⟩
    obtain ⟨above,continues⟩ := climbs.2 key row rows selected
    exact ⟨above,ih _ continues⟩
  | fresh next ih => exact fun key => ih _ (climbs key)
  | commit note writes entries next ih => exact ⟨climbs.1,climbs.2.1,ih climbs.2.2⟩

theorem climbs_safe {prog : Prog V J N R} {held : List (Held V J)} (climbs : Climbs rank prog held) (notes : List N) :
    Safe Anything FreeCommit FreeReply prog held notes := by
  induction prog generalizing held notes with
  | done answer => trivial
  | halt => trivial
  | find sel next ih => exact fun table _ _ => ih _ (climbs _) notes
  | lock sel next ih => exact ⟨ih _ climbs.1 notes,fun key row rows selected _ _ => ih _ (climbs.2 key row rows selected).2 notes⟩
  | fresh next ih => exact fun key _ => ih _ (climbs key) notes
  | commit note writes entries next ih =>
    obtain ⟨writesHeld,entriesHeld,continues⟩ := climbs
    exact ⟨fun key value member => writesHeld _ member,fun entry member => .inl (entriesHeld entry member),
      fun _ _ _ fits _ refers => anything_fits writes entries fits refers,trivial,ih continues _⟩

theorem start_climbing {table : Table V} {journal : Journal J} {progs : List (Prog V J N R)} (keyed : table.Keyed)
    (below : ∀ key ∈ table.map (·.1),key < nextId) (refers : ∀ entry ∈ journal,entry.1 ∈ table.map (·.1))
    (climbs : ∀ prog ∈ progs,Climbs rank prog []) : (Machine.start table journal nextId progs).Climbing rank := by
  have idle : ∀ (who : Nat) (s : Session V J N R),(Machine.start table journal nextId progs).sessions[who]? = some s →
      s.held = [] ∧ s.prog ∈ progs := by
    intro who s found
    simp only [Machine.start,List.getElem?_map,Option.map_eq_some_iff] at found
    obtain ⟨prog,here,rfl⟩ := found
    exact ⟨rfl,List.mem_of_getElem? here⟩
  refine ⟨?_,?_,?_⟩
  · apply start_sound keyed below (fun entry member => below _ (refers entry member))
    · intro key
      cases stored : table.row key with
      | some row => trivial
      | none =>
        apply slice_absent
        intro entry member same
        exact row_none.mp stored (same ▸ refers entry member)
    · exact fun who prog here => climbs_safe (climbs prog (List.mem_of_getElem? here)) []
  · intro who s found
    obtain ⟨free,member⟩ := idle who s found
    rw [free]
    exact climbs _ member
  · intro who s found
    rw [(idle who s found).1]
    trivial

theorem stepProg_climbs {m : Machine V J N R} {held : List (Held V J)} {prog : Prog V J N R} (keyed : m.table.Keyed)
    (here : m.sessions[who]? = some ⟨prog,held⟩) (climbs : Climbs rank prog held) (ascending : Ascending rank held)
    (found : (m.stepProg who pick held prog).sessions[who]? = some s) : Climbs rank s.prog s.held ∧ Ascending rank s.held := by
  have resumed : ∀ next now,(m.resume who next now).sessions[who]? = some s → Climbs rank next now → Ascending rank now →
      Climbs rank s.prog s.held ∧ Ascending rank s.held := by
    intro next now stood continues rising
    rcases resume_at m stood with ⟨-,rfl⟩ | ⟨different,-⟩
    · exact ⟨continues,rising⟩
    · exact absurd rfl different
  have stays : m.sessions[who]? = some s → Climbs rank s.prog s.held ∧ Ascending rank s.held := by
    intro same
    cases here.symm.trans same
    exact ⟨climbs,ascending⟩
  cases prog with
  | done answer => exact resumed _ _ found trivial trivial
  | halt => exact stays found
  | find sel next => exact resumed _ _ found (climbs _) ascending
  | lock sel next =>
    simp only [Machine.stepProg,Machine.lockRow] at found
    split at found
    · exact resumed _ _ found climbs.1 ascending
    · rename_i matching
      split at found
      · exact stays found
      · rename_i key row picked
        obtain ⟨-,selected⟩ := select_row keyed (List.mem_of_getElem? picked)
        obtain ⟨above,continues⟩ := climbs.2 key row (slice m.journal key) selected
        split at found
        · refine resumed _ _ found continues ⟨?_,ascending⟩
          intro other same
          cases same
          exact above
        · exact stays found
  | fresh next =>
    refine resumed (next m.nextId) _ found (climbs _) ⟨?_,ascending⟩
    intro other shown
    cases shown
  | commit note writes entries next =>
    simp only [Machine.stepProg,Machine.commitRows] at found
    split at found
    · exact resumed next [] found climbs.2.2 trivial
    · exact stays found

theorem advance_climbing {m : Machine V J N R} (climbing : m.Climbing rank) (turn : Turn) : (m.advance turn).Climbing rank := by
  have both : ∀ (who : Nat) (s : Session V J N R),(m.advance turn).sessions[who]? = some s →
      Climbs rank s.prog s.held ∧ Ascending rank s.held := by
    intro who s found
    rcases advance_session m turn found with old | rfl | ⟨⟨prog,held⟩,pick,here,moved⟩
    · exact ⟨climbing.climbs who s old,climbing.ascending who s old⟩
    · exact ⟨trivial,trivial⟩
    · rw [moved] at found
      exact stepProg_climbs climbing.sound.keyed here (climbing.climbs who _ here) (climbing.ascending who _ here) found
  exact ⟨advance_sound climbing.sound turn,fun who s found => (both who s found).1,fun who s found => (both who s found).2⟩

theorem run_climbing {m : Machine V J N R} (climbing : m.Climbing rank) (turns : List Turn) : (m.run turns).Climbing rank := by
  induction turns generalizing m with
  | nil => exact climbing
  | cons turn rest ih => exact ih (advance_climbing climbing turn)

-- A wait is for a row above all that the waiting session holds.
theorem waits_above {m : Machine V J N R} (climbing : m.Climbing rank) (waits : Waits m who other) : ∃ s t h row,
    m.sessions[who]? = some s ∧ m.sessions[other]? = some t ∧ h ∈ t.held ∧ h.row = some row ∧ Above rank row s.held := by
  obtain ⟨apart,s,t,key,here,there,wants,owns⟩ := waits
  obtain ⟨h,inHeld,same⟩ := List.any_eq_true.mp owns
  rw [beq_iff_eq] at same
  have climbs := climbing.climbs who s here
  obtain ⟨shown,-,-⟩ := climbing.sound.held other t there h inHeld
  rcases wants with ⟨sel,next,row,prog,member⟩ | ⟨note,writes,entries,next,prog,write,member,rfl⟩
  · obtain ⟨stored,selected⟩ := select_row climbing.sound.keyed member
    rw [prog] at climbs
    rw [same,stored] at shown
    exact ⟨s,t,h,row,here,there,inHeld,shown.symm,(climbs.2 key row [] selected).1⟩
  · rw [prog] at climbs
    obtain ⟨mine,inMine,equal⟩ := climbs.1 write member
    exact absurd (equal.trans same.symm) (climbing.sound.apart who s other t here there apart mine inMine h inHeld)

theorem climbing_free {m : Machine V J N R} (climbing : m.Climbing rank) : ¬Deadlocked m := by
  rintro ⟨who,cycle⟩
  -- along a path of waits the last session holds a row above all that the first one holds
  have highest : ∀ last,Relation.TransGen (Waits m) who last → ∃ s t h row,m.sessions[who]? = some s ∧ m.sessions[last]? = some t ∧
      h ∈ t.held ∧ h.row = some row ∧ Above rank row s.held := by
    intro last path
    induction path with
    | single waits => exact waits_above climbing waits
    | tail _ waits ih =>
      obtain ⟨s,t,h,row,here,there,inHeld,shown,above⟩ := ih
      obtain ⟨t',u,g,higher,same,there',inHeld',shown',above'⟩ := waits_above climbing waits
      cases there.symm.trans same
      refine ⟨s,u,g,higher,here,there',inHeld',shown',?_⟩
      intro mine member other held
      exact (above mine member other held).trans (above' h inHeld row shown)
  obtain ⟨s,t,h,row,here,there,inHeld,shown,above⟩ := highest who cycle
  cases here.symm.trans there
  exact Nat.lt_irrefl _ (above h inHeld row shown)

end Elchi.RowLock

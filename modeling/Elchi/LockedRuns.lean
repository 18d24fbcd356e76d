import Elchi.RowLock
namespace Elchi.RowLock
variable {V J N R : Type}

-- What holds of a key: its row with its journal rows, or no journal row without a row.
def Fits (I : Nat → V → List J → Prop) (key : Nat) : Option V → List J → Prop
  | none,rows => rows = []
  | some row,rows => I key row rows

-- A commit record as its author saw it: the keys it held, the commits it had made before,
-- what it wrote and journalled.
abbrev Guarantee (V J N : Type) := List (Held V J) → List N → N → List (Write V) → Journal J → Prop
-- What a request may answer after the commits it has made.
abbrev Reply (N R : Type) := List N → R → Prop

def Sees (held : List (Held V J)) (table : Table V) : Prop := ∀ h ∈ held,table.row h.key = h.row

-- A program may assume `I` of every row it locks and that a key it holds does not change
-- under it. In return each of its commits keeps `I` of every key, whatever the rows it does
-- not hold, and meets `G`. New rows go under keys it holds, journal rows under keys it holds
-- or writes.
def Safe (I : Nat → V → List J → Prop) (G : Guarantee V J N) (A : Reply N R) :
    Prog V J N R → List (Held V J) → List N → Prop
  | .done answer,_,notes => A notes answer
  | .halt,_,_ => True
  | .find sel next,held,notes =>
      ∀ table : Table V,table.Keyed → Sees held table → Safe I G A (next (table.select sel)) held notes
  | .lock sel next,held,notes => Safe I G A (next none) held notes ∧
      ∀ key row rows,sel key row = true → I key row rows →
        (∀ h ∈ held,h.key = key → h.row = some row ∧ h.slice = rows) →
        Safe I G A (next (some (key,row,rows))) (⟨key,some row,rows⟩ :: held) notes
  | .fresh next,held,notes => ∀ key,(∀ h ∈ held,h.key ≠ key) → Safe I G A (next key) (⟨key,none,[]⟩ :: held) notes
  | .commit note writes entries next,held,notes =>
      (∀ key value,.insert key value ∈ writes → ∃ h ∈ held,h.key = key) ∧
      (∀ entry ∈ entries,(∃ h ∈ held,h.key = entry.1) ∨ ∃ write ∈ writes,write.key = entry.1) ∧
      (∀ key row rows,Fits I key row rows → (∀ h ∈ held,h.key = key → h.row = row ∧ h.slice = rows) →
        (slice entries key ≠ [] → written writes key row ≠ none) →
        Fits I key (written writes key row) (rows ++ slice entries key)) ∧
      G held notes note writes entries ∧ Safe I G A next [] (notes ++ [note])

theorem safe_reply {S : Type} (f : R → S) {prog : Prog V J N R} {held : List (Held V J)} {notes : List N}
    {A : Reply N S} (safe : Safe I G (fun made answer => A made (f answer)) prog held notes) : Safe I G A (prog.reply f) held notes := by
  induction prog generalizing held notes with
  | done answer => exact safe
  | halt => trivial
  | find sel next ih => exact fun table keyed sees => ih _ (safe table keyed sees)
  | lock sel next ih =>
    exact ⟨ih _ safe.1,fun key row rows selected holds agrees => ih _ (safe.2 key row rows selected holds agrees)⟩
  | fresh next ih => exact fun key unused => ih key (safe key unused)
  | commit note writes entries next ih =>
    obtain ⟨inserts,journalled,restored,granted,continues⟩ := safe
    exact ⟨inserts,journalled,restored,granted,ih continues⟩

theorem safe_mono {prog : Prog V J N R} {held : List (Held V J)} {notes : List N} {A A' : Reply N R}
    (commits : ∀ h k n w e,G h k n w e → G' h k n w e) (answers : ∀ made answer,A made answer → A' made answer)
    (safe : Safe I G A prog held notes) : Safe I G' A' prog held notes := by
  induction prog generalizing held notes with
  | done answer => exact answers _ _ safe
  | halt => trivial
  | find sel next ih => exact fun table keyed sees => ih _ (safe table keyed sees)
  | lock sel next ih =>
    exact ⟨ih _ safe.1,fun key row rows selected holds agrees => ih _ (safe.2 key row rows selected holds agrees)⟩
  | fresh next ih => exact fun key unused => ih key (safe key unused)
  | commit note writes entries next ih =>
    obtain ⟨inserts,journalled,restored,granted,continues⟩ := safe
    exact ⟨inserts,journalled,restored,commits _ _ _ _ _ granted,ih continues⟩

-- No invariant of the rows: then only the keys of a commit matter.
def Anything (_key : Nat) (_row : V) (_rows : List J) : Prop := True

theorem anything_fits (writes : List (Write V)) (entries : Journal J) {row : Option V} {rows : List J} (fits : Fits Anything key row rows)
    (refers : slice entries key ≠ [] → written writes key row ≠ none) :
    Fits Anything key (written writes key row) (rows ++ slice entries key) := by
  cases after : written writes key row with
  | some value => trivial
  | none =>
    have missing : row = none := by
      by_contra present
      exact written_present writes present after
    have quiet : slice entries key = [] := by
      by_contra journalled
      exact refers journalled after
    subst missing
    have empty : rows = [] := fits
    rw [empty,quiet]
    rfl

theorem commit_anything {held : List (Held V J)} {notes : List N} {note : N} {writes : List (Write V)} {entries : Journal J}
    {next : Prog V J N R} (inserts : ∀ key value,.insert key value ∈ writes → ∃ h ∈ held,h.key = key)
    (covered : ∀ entry ∈ entries,∃ write ∈ writes,write.key = entry.1) (made : G held notes note writes entries)
    (continues : Safe Anything G A next [] (notes ++ [note])) : Safe Anything G A (.commit note writes entries next) held notes :=
  ⟨inserts,fun entry member => .inr (covered entry member),
    fun _ _ _ fits _ refers => anything_fits writes entries fits refers,made,continues⟩

def Machine.notes (m : Machine V J N R) (who : Nat) : List N :=
  m.log.filterMap fun c => if c.who = who then some c.note else none

structure Machine.Sound (I : Nat → V → List J → Prop) (G : Nat → Guarantee V J N) (A : Nat → Reply N R) (m : Machine V J N R) : Prop where
  keyed : m.table.Keyed
  below : ∀ key ∈ m.table.map (·.1),key < m.nextId
  journalBelow : ∀ entry ∈ m.journal,entry.1 < m.nextId
  fits : ∀ key,Fits I key (m.table.row key) (slice m.journal key)
  held : ∀ (who : Nat) (s : Session V J N R),m.sessions[who]? = some s → ∀ h ∈ s.held,
    m.table.row h.key = h.row ∧ slice m.journal h.key = h.slice ∧ h.key < m.nextId
  apart : ∀ (who : Nat) (s : Session V J N R) (other : Nat) (t : Session V J N R),m.sessions[who]? = some s → m.sessions[other]? = some t → who ≠ other →
    ∀ h ∈ s.held,∀ g ∈ t.held,h.key ≠ g.key
  safe : ∀ (who : Nat) (s : Session V J N R),m.sessions[who]? = some s → Safe I (G who) (A who) s.prog s.held (m.notes who)
  logged : ∀ c ∈ m.log,(∃ made,G c.who c.held made c.note c.writes c.entries) ∧ Sees c.held c.before

theorem resume_at (m : Machine V J N R) (found : (m.resume who prog held).sessions[other]? = some s) :
    (other = who ∧ s = ⟨prog,held⟩) ∨ (other ≠ who ∧ m.sessions[other]? = some s) := by
  simp only [Machine.resume,List.getElem?_set] at found
  by_cases same : who = other
  · subst same
    simp only [if_true] at found
    split at found
    · exact .inl ⟨rfl,(Option.some.inj found).symm⟩
    · cases found
  · simp only [same,if_false] at found
    exact .inr ⟨Ne.symm same,found⟩

theorem free_exact {m : Machine V J N R} : m.free who key = true ↔
    ∀ (other : Nat) (s : Session V J N R),m.sessions[other]? = some s → other ≠ who → s.owns key = false := by
  simp only [Machine.free,List.all_eq_true,List.mem_zipIdx_iff_getElem?,Prod.forall]
  constructor
  · intro all other s found different
    simpa [different] using all s other found
  · intro all s other found
    by_cases same : other = who
    · simp [same]
    · simp [all other s found same]

theorem owns_exact {s : Session V J N R} : s.owns key = false ↔ ∀ h ∈ s.held,h.key ≠ key := by
  simp [Session.owns]

theorem resume_sound {m : Machine V J N R} {held : List (Held V J)} (sound : m.Sound I G A)
    (known : ∀ h ∈ held,m.table.row h.key = h.row ∧ slice m.journal h.key = h.slice ∧ h.key < m.nextId)
    (apart : ∀ (other : Nat) (t : Session V J N R),m.sessions[other]? = some t → other ≠ who → ∀ h ∈ held,∀ g ∈ t.held,h.key ≠ g.key)
    (safe : Safe I (G who) (A who) prog held (m.notes who)) : (m.resume who prog held).Sound I G A := by
  refine ⟨sound.keyed,sound.below,sound.journalBelow,sound.fits,?_,?_,?_,sound.logged⟩
  · intro other s found h member
    rcases resume_at m found with ⟨rfl,rfl⟩ | ⟨-,old⟩
    · exact known h member
    · exact sound.held other s old h member
  · intro left s right t foundLeft foundRight different h inLeft g inRight
    rcases resume_at m foundLeft with ⟨rfl,rfl⟩ | ⟨leftOther,oldLeft⟩
    · rcases resume_at m foundRight with ⟨rfl,rfl⟩ | ⟨rightOther,oldRight⟩
      · exact absurd rfl different
      · exact apart right t oldRight rightOther h inLeft g inRight
    · rcases resume_at m foundRight with ⟨rfl,rfl⟩ | ⟨rightOther,oldRight⟩
      · exact (apart left s oldLeft leftOther g inRight h inLeft).symm
      · exact sound.apart left s right t oldLeft oldRight different h inLeft g inRight
  · intro other s found
    rcases resume_at m found with ⟨rfl,rfl⟩ | ⟨-,old⟩
    · exact safe
    · exact sound.safe other s old

theorem lockRow_sound {m : Machine V J N R} (sound : m.Sound I G A) (here : m.sessions[who]? = some ⟨.lock sel next,held⟩) :
    (m.lockRow who pick held sel next).Sound I G A := by
  have known := sound.held who _ here
  have apart : ∀ (other : Nat) (t : Session V J N R),m.sessions[other]? = some t → other ≠ who → ∀ h ∈ held,∀ g ∈ t.held,h.key ≠ g.key :=
    fun other t found different => sound.apart who _ other t here found (Ne.symm different)
  obtain ⟨missing,locked⟩ := sound.safe who _ here
  unfold Machine.lockRow
  split
  · exact resume_sound sound known apart missing
  · rename_i found matching
    split
    · exact sound
    · rename_i key row picked
      split
      · rename_i free
        obtain ⟨stored,selected⟩ := select_row sound.keyed (List.mem_of_getElem? picked)
        have fits := sound.fits key
        rw [stored] at fits
        have present : key ∈ m.table.map (·.1) := List.mem_map.mpr ⟨(key,row),(row_exact sound.keyed).mpr stored,rfl⟩
        refine resume_sound sound ?_ ?_ (locked key row _ selected fits ?_)
        · intro h member
          rcases List.mem_cons.mp member with rfl | old
          · exact ⟨stored,rfl,sound.below key present⟩
          · exact known h old
        · intro other t atOther different h member g inOther
          rcases List.mem_cons.mp member with rfl | old
          · exact (owns_exact.mp (free_exact.mp free other t atOther different) g inOther).symm
          · exact apart other t atOther different h old g inOther
        · intro h member same
          obtain ⟨row',rows',-⟩ := known h member
          rw [same] at row' rows'
          exact ⟨row'.symm.trans stored,rows'.symm⟩
      · exact sound

theorem fresh_sound {m : Machine V J N R} (sound : m.Sound I G A) (here : m.sessions[who]? = some ⟨.fresh next,held⟩) :
    ({m.resume who (next m.nextId) (⟨m.nextId,none,[]⟩ :: held) with nextId:=m.nextId+1} : Machine V J N R).Sound I G A := by
  have unused : m.nextId ∉ m.table.map (·.1) := fun member => Nat.lt_irrefl _ (sound.below _ member)
  have empty : slice m.journal m.nextId = [] :=
    slice_absent fun entry member => Nat.ne_of_lt (sound.journalBelow entry member)
  have bumped : ({m with nextId:=m.nextId+1} : Machine V J N R).Sound I G A :=
    ⟨sound.keyed,fun key member => Nat.lt_succ_of_lt (sound.below key member),
      fun entry member => Nat.lt_succ_of_lt (sound.journalBelow entry member),sound.fits,
      fun other s found h member => by
        obtain ⟨row,rows,low⟩ := sound.held other s found h member
        exact ⟨row,rows,Nat.lt_succ_of_lt low⟩,
      sound.apart,sound.safe,sound.logged⟩
  have older : ∀ (other : Nat) (s : Session V J N R),m.sessions[other]? = some s → ∀ h ∈ s.held,h.key ≠ m.nextId :=
    fun other s found h member => Nat.ne_of_lt (sound.held other s found h member).2.2
  refine resume_sound bumped ?_ ?_ (sound.safe who _ here m.nextId (older who _ here))
  · intro h member
    rcases List.mem_cons.mp member with rfl | old
    · exact ⟨row_none.mpr unused,empty,Nat.lt_succ_self _⟩
    · exact bumped.held who _ here h old
  · intro other t found different h member g inOther
    rcases List.mem_cons.mp member with rfl | old
    · exact (older other t found g inOther).symm
    · exact sound.apart who _ other t here found (Ne.symm different) h old g inOther

theorem commitRows_sound {m : Machine V J N R} (sound : m.Sound I G A)
    (here : m.sessions[who]? = some ⟨.commit note writes entries next,held⟩) :
    (m.commitRows who held note writes entries next).Sound I G A := by
  obtain ⟨insertsHeld,entriesHeld,restored,granted,continues⟩ := sound.safe who _ here
  have known := sound.held who _ here
  unfold Machine.commitRows
  split
  · rename_i allowed
    simp only [Bool.and_eq_true,List.all_eq_true] at allowed
    obtain ⟨unowned,referred⟩ := allowed
    have lowKey : ∀ key ∈ (applyWrites m.table writes).map (·.1),key < m.nextId := by
      intro key member
      rcases applyWrites_keys_mem writes m.table member with ⟨value,new⟩ | old
      · obtain ⟨h,inHeld,rfl⟩ := insertsHeld key value new
        exact (known h inHeld).2.2
      · exact sound.below key old
    have lowEntry : ∀ entry ∈ entries,entry.1 < m.nextId := by
      intro entry member
      apply lowKey
      by_contra absent
      have present := referred entry member
      simp [row_none.mpr absent] at present
    -- a key some other session holds is neither written (it is not free) nor journalled
    have frame : ∀ (other : Nat) (s : Session V J N R),m.sessions[other]? = some s → other ≠ who → ∀ h ∈ s.held,
        written writes h.key (m.table.row h.key) = m.table.row h.key ∧ slice entries h.key = [] := by
      intro other s found different h member
      constructor
      · apply written_untouched
        intro write inWrites same
        exact owns_exact.mp (free_exact.mp (unowned write inWrites) other s found different) h member same.symm
      · apply slice_absent
        intro entry inEntries same
        rcases entriesHeld entry inEntries with ⟨g,inHeld,equal⟩ | ⟨write,inWrites,equal⟩
        · exact sound.apart who _ other s here found (Ne.symm different) g inHeld h member (equal.trans same)
        · exact owns_exact.mp (free_exact.mp (unowned write inWrites) other s found different) h member (equal.trans same).symm
    refine ⟨applyWrites_keyed writes sound.keyed,lowKey,?_,?_,?_,?_,?_,?_⟩
    · intro entry member
      rcases List.mem_append.mp member with old | new
      · exact sound.journalBelow entry old
      · exact lowEntry entry new
    · intro key
      change Fits I key ((applyWrites m.table writes).row key) (slice (m.journal ++ entries) key)
      rw [applyWrites_row,slice_append]
      apply restored key _ _ (sound.fits key)
      · rintro h inHeld rfl
        exact ⟨(known h inHeld).1.symm,(known h inHeld).2.1.symm⟩
      · intro journalled missing
        apply journalled
        apply slice_absent
        intro entry inEntries same
        have present := referred entry inEntries
        simp [applyWrites_row,same,missing] at present
    · intro other s found h member
      rcases resume_at m found with ⟨-,rfl⟩ | ⟨different,old⟩
      · cases member
      · obtain ⟨sameRow,noRows⟩ := frame other s old different h member
        obtain ⟨row,rows,low⟩ := sound.held other s old h member
        change (applyWrites m.table writes).row h.key = h.row ∧ slice (m.journal ++ entries) h.key = h.slice ∧ h.key < m.nextId
        rw [applyWrites_row,slice_append,sameRow,noRows,List.append_nil]
        exact ⟨row,rows,low⟩
    · intro left s right t foundLeft foundRight different h inLeft g inRight
      rcases resume_at m foundLeft with ⟨-,rfl⟩ | ⟨-,oldLeft⟩
      · cases inLeft
      · rcases resume_at m foundRight with ⟨-,rfl⟩ | ⟨-,oldRight⟩
        · cases inRight
        · exact sound.apart left s right t oldLeft oldRight different h inLeft g inRight
    · intro other s found
      rcases resume_at m found with ⟨rfl,rfl⟩ | ⟨different,old⟩
      · simpa [Machine.notes] using continues
      · simpa [Machine.notes,Ne.symm different] using sound.safe other s old
    · intro c member
      rcases List.mem_append.mp member with old | new
      · exact sound.logged c old
      · cases List.mem_singleton.mp new
        exact ⟨⟨_,granted⟩,fun h inHeld => (known h inHeld).1⟩
  · exact sound

theorem advance_sound {m : Machine V J N R} (sound : m.Sound I G A) (turn : Turn) : (m.advance turn).Sound I G A := by
  have released : ∀ who (prog : Prog V J N R),Safe I (G who) (A who) prog [] (m.notes who) → (m.resume who prog []).Sound I G A :=
    fun who prog safe => resume_sound sound (by simp) (by simp) safe
  cases turn with
  | kill who => exact released who .halt trivial
  | step who pick =>
    simp only [Machine.advance]
    split
    · exact sound
    · rename_i session here
      obtain ⟨prog,held⟩ := session
      cases prog with
      | done answer => exact released who _ (sound.safe who _ here)
      | halt => exact sound
      | find sel next =>
        have known := sound.held who _ here
        refine resume_sound sound known ?_ (sound.safe who _ here m.table sound.keyed fun h member => (known h member).1)
        exact fun other t found different => sound.apart who _ other t here found (Ne.symm different)
      | lock sel next => exact lockRow_sound sound here
      | fresh next => exact fresh_sound sound here
      | commit note writes entries next => exact commitRows_sound sound here

theorem run_sound {m : Machine V J N R} (sound : m.Sound I G A) (turns : List Turn) : (m.run turns).Sound I G A := by
  induction turns generalizing m with
  | nil => exact sound
  | cons turn rest ih => exact ih (advance_sound sound turn)

theorem start_sound {table : Table V} {journal : Journal J} {progs : List (Prog V J N R)} (keyed : table.Keyed)
    (below : ∀ key ∈ table.map (·.1),key < nextId) (journalBelow : ∀ entry ∈ journal,entry.1 < nextId)
    (fits : ∀ key,Fits I key (table.row key) (slice journal key))
    (safe : ∀ (who : Nat) prog,progs[who]? = some prog → Safe I (G who) (A who) prog [] []) :
    (Machine.start table journal nextId progs).Sound I G A := by
  have idle : ∀ (who : Nat) (s : Session V J N R),(Machine.start table journal nextId progs).sessions[who]? = some s →
      s.held = [] ∧ progs[who]? = some s.prog := by
    intro who s found
    simp only [Machine.start,List.getElem?_map,Option.map_eq_some_iff] at found
    obtain ⟨prog,here,rfl⟩ := found
    exact ⟨rfl,here⟩
  refine ⟨keyed,below,journalBelow,fits,?_,?_,?_,?_⟩
  · intro who s found h member
    rw [(idle who s found).1] at member
    cases member
  · intro who s other t found _ _ h member
    rw [(idle who s found).1] at member
    cases member
  · intro who s found
    rw [(idle who s found).1]
    exact safe who _ (idle who s found).2
  · intro c member
    cases member

-- The commits of a run, replayed in order, lead from the first table to the last.
def Replays (first : Table V) : List (Commit V J N) → Table V → Prop
  | [],last => first = last
  | commit :: rest,last => commit.before = first ∧ Replays commit.after rest last

theorem Replays.snoc {first middle : Table V} {log : List (Commit V J N)} (path : Replays first log middle)
    (commit : Commit V J N) (here : commit.before = middle) : Replays first (log ++ [commit]) commit.after := by
  induction log generalizing first with
  | nil =>
    cases path
    exact ⟨here,rfl⟩
  | cons head rest ih => exact ⟨path.1,ih path.2⟩

theorem Replays.split {first last : Table V} {left right : List (Commit V J N)} (path : Replays first (left ++ right) last) :
    ∃ middle,Replays first left middle ∧ Replays middle right last := by
  induction left generalizing first with
  | nil => exact ⟨first,rfl,path⟩
  | cons head rest ih =>
    obtain ⟨middle,before,after⟩ := ih path.2
    exact ⟨middle,⟨path.1,before⟩,after⟩

-- What holds at the end and not at the start, some commit brought about.
theorem Replays.crossing {first last : Table V} {log : List (Commit V J N)} (P : Table V → Prop) (path : Replays first log last)
    (absent : ¬P first) (present : P last) : ∃ commit ∈ log,¬P commit.before ∧ P commit.after := by
  induction log generalizing first with
  | nil =>
    cases path
    exact absurd present absent
  | cons head rest ih =>
    by_cases arrived : P head.after
    · exact ⟨head,List.mem_cons_self,path.1 ▸ absent,arrived⟩
    · obtain ⟨commit,member,crossed⟩ := ih path.2 arrived
      exact ⟨commit,List.mem_cons_of_mem _ member,crossed⟩

-- What every commit keeps holds at each of them and at the end.
theorem Replays.holds {first last : Table V} {log : List (Commit V J N)} {P : Table V → Prop} (path : Replays first log last)
    (start : P first) (step : ∀ commit ∈ log,P commit.before → P commit.after) : P last ∧ ∀ commit ∈ log,P commit.before := by
  induction log generalizing first with
  | nil =>
    cases path
    exact ⟨start,nofun⟩
  | cons head rest ih =>
    obtain ⟨rfl,later⟩ := path
    obtain ⟨now,others⟩ := List.forall_mem_cons.mp step
    obtain ⟨final,along⟩ := ih later (now start) others
    exact ⟨final,List.forall_mem_cons.mpr ⟨start,along⟩⟩

theorem lockRow_store (m : Machine V J N R) : (m.lockRow who pick held sel next).table = m.table ∧
    (m.lockRow who pick held sel next).journal = m.journal ∧ (m.lockRow who pick held sel next).log = m.log := by
  unfold Machine.lockRow
  split
  · exact ⟨rfl,rfl,rfl⟩
  · split
    · exact ⟨rfl,rfl,rfl⟩
    · split
      · exact ⟨rfl,rfl,rfl⟩
      · exact ⟨rfl,rfl,rfl⟩

-- All a turn can do to the stored data: nothing, or one commit of the session whose turn it is.
theorem advance_parts (m : Machine V J N R) (turn : Turn) :
    ((m.advance turn).table = m.table ∧ (m.advance turn).journal = m.journal ∧ (m.advance turn).log = m.log) ∨
    ∃ (who : Nat) (note : N) (writes : List (Write V)) (entries : Journal J) (next : Prog V J N R) (held : List (Held V J)),
      m.sessions[who]? = some ⟨.commit note writes entries next,held⟩ ∧
      (∀ write ∈ writes,m.free who write.key = true) ∧
      m.advance turn = {m.resume who next [] with
        table:=applyWrites m.table writes,journal:=m.journal ++ entries,
        log:=m.log ++ [⟨who,note,held,m.table,writes,entries⟩]} := by
  cases turn with
  | kill who => exact .inl ⟨rfl,rfl,rfl⟩
  | step who pick =>
    simp only [Machine.advance]
    split
    · exact .inl ⟨rfl,rfl,rfl⟩
    · rename_i session here
      obtain ⟨prog,held⟩ := session
      cases prog with
      | done answer => exact .inl ⟨rfl,rfl,rfl⟩
      | halt => exact .inl ⟨rfl,rfl,rfl⟩
      | find sel next => exact .inl ⟨rfl,rfl,rfl⟩
      | lock sel next => exact .inl (lockRow_store m)
      | fresh next => exact .inl ⟨rfl,rfl,rfl⟩
      | commit note writes entries next =>
        simp only [Machine.stepProg,Machine.commitRows]
        split
        · rename_i allowed
          simp only [Bool.and_eq_true,List.all_eq_true] at allowed
          exact .inr ⟨who,note,writes,entries,next,held,here,allowed.1,rfl⟩
        · exact .inl ⟨rfl,rfl,rfl⟩

theorem stepProg_elsewhere (m : Machine V J N R) (prog : Prog V J N R) (other : who ≠ mover) :
    (m.stepProg mover pick held prog).sessions[who]? = m.sessions[who]? := by
  have apart : ∀ (next : Prog V J N R) now,(m.resume mover next now).sessions[who]? = m.sessions[who]? := by
    intro next now
    simp [Machine.resume,Ne.symm other]
  cases prog with
  | done answer => exact apart _ _
  | halt => rfl
  | find sel next => exact apart _ _
  | lock sel next =>
    simp only [Machine.stepProg,Machine.lockRow]
    split
    · exact apart _ _
    · split
      · rfl
      · split
        · exact apart _ _
        · rfl
  | fresh next => exact apart _ _
  | commit note writes entries next =>
    simp only [Machine.stepProg,Machine.commitRows]
    split
    · exact apart _ _
    · rfl

-- All a turn can do to one session: nothing, its end, or the session's own next step.
theorem advance_session (m : Machine V J N R) (turn : Turn) (found : (m.advance turn).sessions[who]? = some s) :
    m.sessions[who]? = some s ∨ s = ⟨.halt,[]⟩ ∨
    ∃ old pick,m.sessions[who]? = some old ∧ m.advance turn = m.stepProg who pick old.held old.prog := by
  cases turn with
  | kill mover =>
    rcases resume_at m found with ⟨-,same⟩ | ⟨-,old⟩
    · exact .inr (.inl same)
    · exact .inl old
  | step mover pick =>
    cases moving : m.sessions[mover]? with
    | none =>
      simp only [Machine.advance,moving] at found
      exact .inl found
    | some session =>
      have moved : m.advance (.step mover pick) = m.stepProg mover pick session.held session.prog := by simp [Machine.advance,moving]
      by_cases same : who = mover
      · subst same
        exact .inr (.inr ⟨session,pick,moving,moved⟩)
      · rw [moved,stepProg_elsewhere m _ same] at found
        exact .inl found

theorem advance_replays {m : Machine V J N R} (path : Replays first m.log m.table) (turn : Turn) :
    Replays first (m.advance turn).log (m.advance turn).table := by
  rcases advance_parts m turn with ⟨table,-,log⟩ | ⟨who,note,writes,entries,next,held,-,-,result⟩
  · rwa [table,log]
  · rw [result]
    exact path.snoc ⟨who,note,held,m.table,writes,entries⟩ rfl

theorem run_replays {m : Machine V J N R} (path : Replays first m.log m.table) (turns : List Turn) :
    Replays first (m.run turns).log (m.run turns).table := by
  induction turns generalizing m with
  | nil => exact path
  | cons turn rest ih => exact ih (advance_replays path turn)

-- Requests that commit only as their first commit, commit at most once.
theorem run_once {m : Machine V J N R} (sound : m.Sound I G A) (first : ∀ who h k n w e,G who h k n w e → k = [])
    (once : ∀ who,(m.notes who).length ≤ 1) (turns : List Turn) (who : Nat) : ((m.run turns).notes who).length ≤ 1 := by
  induction turns generalizing m with
  | nil => exact once who
  | cons turn rest ih =>
    apply ih (advance_sound sound turn)
    intro other
    rcases advance_parts m turn with ⟨-,-,log⟩ | ⟨mover,note,writes,entries,next,held,here,-,result⟩
    · rw [Machine.notes,log]
      exact once other
    · have none : m.notes mover = [] := first _ _ _ _ _ _ (sound.safe mover _ here).2.2.2.1
      have grown : (m.advance turn).notes other = m.notes other ++ if mover = other then [note] else [] := by
        rw [result]
        by_cases same : mover = other
        · simp [Machine.notes,same]
        · simp [Machine.notes,same]
      rw [grown]
      by_cases same : mover = other
      · subst same
        simp [none]
      · simpa [same] using once other

-- The journal is what its commits have appended.
theorem run_journal {m : Machine V J N R} {opening : Journal J} (appended : m.journal = opening ++ m.log.flatMap (·.entries))
    (turns : List Turn) : (m.run turns).journal = opening ++ (m.run turns).log.flatMap (·.entries) := by
  induction turns generalizing m with
  | nil => exact appended
  | cons turn rest ih =>
    apply ih
    rcases advance_parts m turn with ⟨-,journal,log⟩ | ⟨who,note,writes,entries,next,held,-,-,result⟩
    · rwa [journal,log]
    · simp [result,appended]

end Elchi.RowLock

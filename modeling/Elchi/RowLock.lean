import Mathlib.Algebra.Order.Ring.Int
import Mathlib.Data.List.Nodup
namespace Elchi.RowLock
variable {V J N R : Type}

-- A table of rows under their primary keys, and a journal of rows that refer to one key each.
abbrev Table (V : Type) := List (Nat × V)
abbrev Journal (J : Type) := List (Nat × J)

def Table.row (table : Table V) (key : Nat) : Option V :=
  (table.find? fun entry => entry.1 == key).map (·.2)
def Table.put : Table V → Nat → V → Table V
  | [],key,value => [(key,value)]
  | (k,v) :: rest,key,value => if k = key then (key,value) :: rest else (k,v) :: Table.put rest key value
def Table.Keyed (table : Table V) : Prop := (table.map (·.1)).Nodup
instance (table : Table V) : Decidable table.Keyed := inferInstanceAs (Decidable (table.map (·.1)).Nodup)
def Table.select (table : Table V) (sel : Nat → V → Bool) : Table V := table.filter fun entry => sel entry.1 entry.2
def slice (journal : Journal J) (key : Nat) : List J :=
  journal.filterMap fun entry => if entry.1 = key then some entry.2 else none

-- An update sees the stored row and does nothing where there is none.
inductive Write (V : Type) where
  | insert (key : Nat) (value : V)
  | update (key : Nat) (save : V → V)

def Write.key : Write V → Nat
  | .insert key _ => key
  | .update key _ => key
def Write.result : Write V → Option V → Option V
  | .insert _ value,_ => some value
  | .update _ save,row => row.map save
def Write.apply (write : Write V) (table : Table V) : Table V :=
  match write.result (table.row write.key) with
  | none => table
  | some value => table.put write.key value

def applyWrites (table : Table V) (writes : List (Write V)) : Table V :=
  writes.foldl (fun current write => write.apply current) table
def written (writes : List (Write V)) (key : Nat) (row : Option V) : Option V :=
  writes.foldl (fun current write => if write.key = key then write.result current else current) row

-- One request. `find` is an unlocked read of the committed rows, `lock` is
-- SELECT ... LIMIT 1 FOR UPDATE and also returns the journal rows of the locked key,
-- `fresh` draws a primary key, `commit` writes rows and journal rows, whose keys must have a
-- row by then, and releases the locks.
inductive Prog (V J N R : Type) where
  | done (answer : R)
  | halt
  | find (sel : Nat → V → Bool) (next : Table V → Prog V J N R)
  | lock (sel : Nat → V → Bool) (next : Option (Nat × V × List J) → Prog V J N R)
  | fresh (next : Nat → Prog V J N R)
  | commit (note : N) (writes : List (Write V)) (entries : Journal J) (next : Prog V J N R)

-- The same requests with another answer, for a handler that wraps another one.
def Prog.reply {S : Type} (f : R → S) : Prog V J N R → Prog V J N S
  | .done answer => .done (f answer)
  | .halt => .halt
  | .find sel next => .find sel fun rows => (next rows).reply f
  | .lock sel next => .lock sel fun found => (next found).reply f
  | .fresh next => .fresh fun key => (next key).reply f
  | .commit note writes entries next => .commit note writes entries (next.reply f)

-- A key this session owns, with the committed row and journal rows it saw there.
-- A drawn key that no row has yet is held with no row.
structure Held (V J : Type) where
  key : Nat
  row : Option V
  slice : List J
structure Session (V J N R : Type) where
  prog : Prog V J N R
  held : List (Held V J)
structure Commit (V J N : Type) where
  who : Nat
  note : N
  held : List (Held V J)
  before : Table V
  writes : List (Write V)
  entries : Journal J
structure Machine (V J N R : Type) where
  table : Table V
  journal : Journal J
  nextId : Nat
  sessions : List (Session V J N R)
  log : List (Commit V J N)

def Commit.after (commit : Commit V J N) : Table V := applyWrites commit.before commit.writes
def Session.owns (session : Session V J N R) (key : Nat) : Bool := session.held.any fun h => h.key == key
def Machine.free (m : Machine V J N R) (who key : Nat) : Bool :=
  m.sessions.zipIdx.all fun entry => entry.2 == who || !entry.1.owns key
def Machine.resume (m : Machine V J N R) (who : Nat) (prog : Prog V J N R) (held : List (Held V J)) : Machine V J N R :=
  {m with sessions:=m.sessions.set who ⟨prog,held⟩}

-- `pick` resolves which matching row an unordered LIMIT 1 returns. `kill` is a lost
-- connection or a deadlock victim: the transaction is rolled back and its locks released.
inductive Turn where
  | step (who pick : Nat)
  | kill (who : Nat)

def Machine.lockRow (m : Machine V J N R) (who pick : Nat) (held : List (Held V J))
    (sel : Nat → V → Bool) (next : Option (Nat × V × List J) → Prog V J N R) : Machine V J N R :=
  match m.table.select sel with
  | [] => m.resume who (next none) held
  | found => match found[pick]? with
    | none => m
    | some (key,row) =>
      if m.free who key then
        m.resume who (next (some (key,row,slice m.journal key))) (⟨key,some row,slice m.journal key⟩ :: held)
      else m
def Machine.commitRows (m : Machine V J N R) (who : Nat) (held : List (Held V J)) (note : N)
    (writes : List (Write V)) (entries : Journal J) (next : Prog V J N R) : Machine V J N R :=
  if writes.all (fun write => m.free who write.key) && entries.all (fun entry => ((applyWrites m.table writes).row entry.1).isSome) then
    {m.resume who next [] with
      table:=applyWrites m.table writes,journal:=m.journal ++ entries,
      log:=m.log ++ [⟨who,note,held,m.table,writes,entries⟩]}
  else m
def Machine.stepProg (m : Machine V J N R) (who pick : Nat) (held : List (Held V J)) : Prog V J N R → Machine V J N R
  | .done answer => m.resume who (.done answer) []
  | .halt => m
  | .find sel next => m.resume who (next (m.table.select sel)) held
  | .lock sel next => m.lockRow who pick held sel next
  | .fresh next => {m.resume who (next m.nextId) (⟨m.nextId,none,[]⟩ :: held) with nextId:=m.nextId+1}
  | .commit note writes entries next => m.commitRows who held note writes entries next
def Machine.advance (m : Machine V J N R) : Turn → Machine V J N R
  | .kill who => m.resume who .halt []
  | .step who pick => match m.sessions[who]? with
    | none => m
    | some session => m.stepProg who pick session.held session.prog
def Machine.run (m : Machine V J N R) (turns : List Turn) : Machine V J N R := turns.foldl Machine.advance m

def Machine.start (table : Table V) (journal : Journal J) (nextId : Nat) (progs : List (Prog V J N R)) : Machine V J N R :=
  ⟨table,journal,nextId,progs.map fun prog => ⟨prog,[]⟩,[]⟩

@[simp] theorem run_nil (m : Machine V J N R) : m.run [] = m := rfl
@[simp] theorem run_cons (m : Machine V J N R) (turn : Turn) (rest : List Turn) :
    m.run (turn :: rest) = (m.advance turn).run rest := rfl

@[simp] theorem row_nil (key : Nat) : Table.row ([] : Table V) key = none := rfl
theorem row_cons (entry : Nat × V) (rest : Table V) (key : Nat) :
    Table.row (entry :: rest) key = if entry.1 = key then some entry.2 else Table.row rest key := by
  unfold Table.row
  by_cases same : entry.1 = key
  · simp [same]
  · simp [same]

theorem put_nil (key : Nat) (value : V) : Table.put [] key value = [(key,value)] := rfl
theorem put_cons (k : Nat) (v : V) (rest : Table V) (key : Nat) (value : V) :
    Table.put ((k,v) :: rest) key value = if k = key then (key,value) :: rest else (k,v) :: Table.put rest key value := rfl
theorem row_put (table : Table V) (key other : Nat) (value : V) :
    (table.put key value).row other = if key = other then some value else table.row other := by
  induction table with
  | nil => simp [put_nil,row_cons]
  | cons entry rest ih =>
    obtain ⟨k,v⟩ := entry
    rw [put_cons]
    by_cases same : k = key
    · subst same
      simp only [if_true,row_cons]
      by_cases here : k = other
      · simp [here]
      · simp [here]
    · simp only [same,if_false,row_cons,ih]
      by_cases here : key = other
      · subst here; simp [same]
      · simp [here]

theorem put_keys_mem (table : Table V) : other ∈ (table.put key value).map (·.1) ↔
    other = key ∨ other ∈ table.map (·.1) := by
  induction table with
  | nil => simp [put_nil]
  | cons entry rest ih =>
    obtain ⟨k,v⟩ := entry
    rw [put_cons]
    split
    · rename_i same
      simp [same]
    · simp only [List.map_cons,List.mem_cons,ih]
      tauto

theorem put_mem {table : Table V} {entry : Nat × V} (member : entry ∈ table.put key value) : entry = (key,value) ∨ entry ∈ table := by
  induction table with
  | nil => exact .inl (by simpa [put_nil] using member)
  | cons first rest ih =>
    obtain ⟨k,v⟩ := first
    rw [put_cons] at member
    split at member
    · exact (List.mem_cons.mp member).imp_right (.tail _)
    · rcases List.mem_cons.mp member with rfl | later
      · exact .inr List.mem_cons_self
      · exact (ih later).imp_right (.tail _)
theorem put_keyed {table : Table V} (keyed : table.Keyed) (key : Nat) (value : V) : (table.put key value).Keyed := by
  induction table with
  | nil => simp [put_nil,Table.Keyed]
  | cons entry rest ih =>
    obtain ⟨k,v⟩ := entry
    have absent : k ∉ rest.map (·.1) := (List.nodup_cons.mp keyed).1
    have tail : Table.Keyed rest := (List.nodup_cons.mp keyed).2
    rw [put_cons]
    split
    · rename_i same
      subst same
      exact List.nodup_cons.mpr ⟨absent,tail⟩
    · rename_i different
      refine List.nodup_cons.mpr ⟨?_,ih tail⟩
      intro member
      rcases (put_keys_mem rest).mp member with equal | old
      · exact different equal
      · exact absent old

theorem row_none {table : Table V} : table.row key = none ↔ key ∉ table.map (·.1) := by
  induction table with
  | nil => simp
  | cons entry rest ih =>
    rw [row_cons,List.map_cons,List.mem_cons]
    by_cases same : entry.1 = key
    · simp [same]
    · simp [same,ih,Ne.symm same]

theorem apply_keyed (write : Write V) {table : Table V} (keyed : table.Keyed) : (write.apply table).Keyed := by
  unfold Write.apply
  split
  · exact keyed
  · exact put_keyed keyed _ _

theorem apply_row (write : Write V) (table : Table V) (key : Nat) :
    (write.apply table).row key = if write.key = key then write.result (table.row key) else table.row key := by
  unfold Write.apply
  by_cases same : write.key = key
  · subst same
    cases write with
    | insert k value => simp [Write.result,row_put]
    | update k save =>
      cases stored : table.row (Write.update k save).key with
      | none => simp [Write.result,stored]
      | some value => simp [Write.result,row_put]
  · split
    · simp [same]
    · simp [same,row_put]

theorem apply_keys_mem (write : Write V) (table : Table V) (member : key ∈ (write.apply table).map (·.1)) :
    (∃ value,write = .insert key value) ∨ key ∈ table.map (·.1) := by
  cases write with
  | insert k value =>
    rcases (put_keys_mem table).mp member with rfl | old
    · exact .inl ⟨value,rfl⟩
    · exact .inr old
  | update k save =>
    right
    simp only [Write.apply,Write.result,Write.key] at member
    cases stored : table.row k with
    | none => simpa [stored] using member
    | some value =>
      simp only [stored,Option.map_some] at member
      rcases (put_keys_mem table).mp member with rfl | old
      · by_contra absent
        rw [row_none.mpr absent] at stored
        cases stored
      · exact old

theorem applyWrites_keyed (writes : List (Write V)) {table : Table V} (keyed : table.Keyed) :
    (applyWrites table writes).Keyed := by
  induction writes generalizing table with
  | nil => exact keyed
  | cons write rest ih => exact ih (apply_keyed write keyed)

theorem applyWrites_row (writes : List (Write V)) (table : Table V) (key : Nat) :
    (applyWrites table writes).row key = written writes key (table.row key) := by
  induction writes generalizing table with
  | nil => rfl
  | cons write rest ih =>
    have head := ih (write.apply table)
    rw [apply_row] at head
    exact head

theorem applyWrites_keys_mem (writes : List (Write V)) (table : Table V)
    (member : key ∈ (applyWrites table writes).map (·.1)) :
    (∃ value,.insert key value ∈ writes) ∨ key ∈ table.map (·.1) := by
  induction writes generalizing table with
  | nil => exact .inr member
  | cons write rest ih =>
    rcases ih (write.apply table) member with ⟨value,new⟩ | old
    · exact .inl ⟨value,by simp [new]⟩
    · rcases apply_keys_mem write table old with ⟨value,rfl⟩ | older
      · exact .inl ⟨value,by simp⟩
      · exact .inr older

theorem written_untouched {writes : List (Write V)} (untouched : ∀ write ∈ writes,write.key ≠ key) (row : Option V) :
    written writes key row = row := by
  induction writes generalizing row with
  | nil => rfl
  | cons write rest ih =>
    have different : write.key ≠ key := untouched write (by simp)
    have rest := ih (fun other member => untouched other (by simp [member])) row
    rw [written,List.foldl_cons,if_neg different]
    exact rest

theorem written_append (first second : List (Write V)) (key : Nat) (row : Option V) :
    written (first ++ second) key row = written second key (written first key row) :=
  List.foldl_append
@[simp] theorem written_nil (key : Nat) (row : Option V) : written [] key row = row := rfl
theorem written_cons (write : Write V) (rest : List (Write V)) (key : Nat) (row : Option V) :
    written (write :: rest) key row = written rest key (if write.key = key then write.result row else row) := rfl

theorem written_update (k : Nat) (save : V → V) (rest : List (Write V)) (key : Nat) (row : Option V) :
    written (.update k save :: rest) key row = written rest key (if k = key then row.map save else row) := rfl

-- No write removes a row.
theorem written_present (writes : List (Write V)) {row : Option V} (present : row ≠ none) : written writes key row ≠ none := by
  induction writes generalizing row with
  | nil => exact present
  | cons write rest ih =>
    rw [written_cons]
    apply ih
    split
    · cases write with
      | insert k value => simp [Write.result]
      | update k save => simpa [Write.result] using present
    · exact present

-- What every write keeps of the row it meets, and gives to the row it adds, holds of the table after them.
theorem applyWrites_keeps {P : Nat → V → Prop} {table : Table V} {writes : List (Write V)}
    (inserts : ∀ key value,.insert key value ∈ writes → P key value)
    (updates : ∀ key save,.update key save ∈ writes → ∀ value,P key value → P key (save value))
    (holds : ∀ key value,table.row key = some value → P key value) :
    ∀ key value,(applyWrites table writes).row key = some value → P key value := by
  induction writes generalizing table with
  | nil => exact holds
  | cons write rest ih =>
    apply ih (fun key value member => inserts key value (.tail _ member)) fun key save member => updates key save (.tail _ member)
    intro key value stored
    rw [apply_row] at stored
    split at stored
    · rename_i here
      subst here
      cases write with
      | insert k given =>
        cases stored
        exact inserts k value List.mem_cons_self
      | update k save =>
        obtain ⟨old,found,rfl⟩ := Option.map_eq_some_iff.mp stored
        exact updates k save List.mem_cons_self old (holds k old found)
    · exact holds key value stored

theorem written_updates {keys : List Nat} (distinct : keys.Nodup) (save : V → V) (key : Nat) (row : Option V) :
    written (keys.map fun k => Write.update k save) key row = if key ∈ keys then row.map save else row := by
  induction keys generalizing row with
  | nil => rfl
  | cons k rest ih =>
    obtain ⟨absent,tail⟩ := List.nodup_cons.mp distinct
    rw [List.map_cons,written_update,ih tail]
    by_cases same : k = key
    · subst same
      simp [absent]
    · simp [same,Ne.symm same]

-- A sum taken group by group.
theorem sum_groups {α : Type} (group : α → Nat) (value : α → Int) {groups : List Nat} (distinct : groups.Nodup) (items : List α) :
    (groups.map fun g => (items.map fun item => if group item = g then value item else 0).sum).sum =
      (items.map fun item => if group item ∈ groups then value item else 0).sum := by
  induction groups with
  | nil =>
    induction items with
    | nil => rfl
    | cons item rest ih => simp
  | cons first rest ih =>
    obtain ⟨fresh,tail⟩ := List.nodup_cons.mp distinct
    rw [List.map_cons,List.sum_cons,ih tail]
    clear ih
    induction items with
    | nil => rfl
    | cons item others ih =>
      simp only [List.map_cons,List.sum_cons,←ih]
      by_cases own : group item = first
      · have absent : group item ∉ rest := own ▸ fresh
        simp only [own,List.mem_cons,true_or,if_true,if_neg (own ▸ absent)]
        omega
      · simp only [own,List.mem_cons,false_or,if_false]
        omega

-- A sum over all rows.
def Table.weigh (weight : V → Int) (table : Table V) : Int := (table.map fun entry => weight entry.2).sum

theorem weigh_nothing {weight : V → Int} {table : Table V} (none : ∀ entry ∈ table,weight entry.2 = 0) : table.weigh weight = 0 := by
  induction table with
  | nil => rfl
  | cons entry rest ih =>
    have tail := ih fun other member => none other (.tail _ member)
    simp only [Table.weigh,List.map_cons,List.sum_cons,none entry List.mem_cons_self] at tail ⊢
    omega
theorem weigh_only {weight : V → Int} {table : Table V} (keyed : table.Keyed) {entry : Nat × V} (member : entry ∈ table)
    (others : ∀ other ∈ table,other.1 ≠ entry.1 → weight other.2 = 0) : table.weigh weight = weight entry.2 := by
  induction table with
  | nil => cases member
  | cons first rest ih =>
    obtain ⟨fresh,tail⟩ := List.nodup_cons.mp keyed
    rcases List.mem_cons.mp member with rfl | later
    · have none : Table.weigh weight rest = 0 := by
        apply weigh_nothing
        intro other listed
        apply others other (.tail _ listed)
        intro same
        exact fresh (List.mem_map.mpr ⟨other,listed,same⟩)
      simp only [Table.weigh,List.map_cons,List.sum_cons] at none ⊢
      omega
    · have zero : weight first.2 = 0 := by
        apply others first List.mem_cons_self
        intro same
        exact fresh (List.mem_map.mpr ⟨entry,later,same.symm⟩)
      have sum := ih tail later fun other listed => others other (.tail _ listed)
      simp only [Table.weigh,List.map_cons,List.sum_cons,zero] at sum ⊢
      omega

theorem weigh_put {table : Table V} (keyed : table.Keyed) (weight : V → Int) (key : Nat) (value : V) :
    (table.put key value).weigh weight + (table.row key).elim 0 weight = table.weigh weight + weight value := by
  induction table with
  | nil => simp [put_nil,Table.weigh]
  | cons entry rest ih =>
    obtain ⟨k,v⟩ := entry
    have tail : Table.Keyed rest := (List.nodup_cons.mp keyed).2
    rw [row_cons]
    rw [put_cons]
    by_cases same : k = key
    · simp only [same,if_true,Table.weigh,List.map_cons,List.sum_cons,Option.elim_some]
      omega
    · have rest := ih tail
      simp only [same,if_false,Table.weigh,List.map_cons,List.sum_cons] at rest ⊢
      omega

theorem weigh_update {table : Table V} (keyed : table.Keyed) (weight : V → Int) (key : Nat) (save : V → V) :
    ((Write.update key save).apply table).weigh weight =
      table.weigh weight + (table.row key).elim 0 fun row => weight (save row) - weight row := by
  simp only [Write.apply,Write.result,Write.key]
  cases stored : table.row key with
  | none => simp
  | some row =>
    have change := weigh_put keyed weight key (save row)
    rw [stored] at change
    simp only [Option.map_some,Option.elim_some] at change ⊢
    omega

theorem weigh_updates {keys : List Nat} {table : Table V} (distinct : keys.Nodup) (keyed : table.Keyed) (weight : V → Int)
    (save : V → V) : (applyWrites table (keys.map fun k => Write.update k save)).weigh weight =
      table.weigh weight + (keys.map fun k => (table.row k).elim 0 fun row => weight (save row) - weight row).sum := by
  induction keys generalizing table with
  | nil => simp [applyWrites]
  | cons k rest ih =>
    obtain ⟨absent,tail⟩ := List.nodup_cons.mp distinct
    have later := ih tail (apply_keyed (.update k save) keyed)
    have untouched : (rest.map fun other => (((Write.update k save).apply table).row other).elim 0 fun row => weight (save row) - weight row) =
        rest.map fun other => (table.row other).elim 0 fun row => weight (save row) - weight row := by
      apply List.map_congr_left
      intro other member
      have different : k ≠ other := fun same => absent (same ▸ member)
      rw [apply_row,Write.key,if_neg different]
    rw [untouched,weigh_update keyed] at later
    rw [List.map_cons,List.map_cons,List.sum_cons,←Int.add_assoc]
    exact later

-- Updates rewrite the rows where they stand.
theorem update_map {table : Table V} (keyed : table.Keyed) (key : Nat) (save : V → V) :
    (Write.update key save).apply table = table.map fun entry => if entry.1 = key then (entry.1,save entry.2) else entry := by
  simp only [Write.apply,Write.result,Write.key]
  induction table with
  | nil => rfl
  | cons entry rest ih =>
    obtain ⟨k,v⟩ := entry
    have absent : k ∉ rest.map (·.1) := (List.nodup_cons.mp keyed).1
    have tail := ih (List.nodup_cons.mp keyed).2
    rw [row_cons,List.map_cons]
    by_cases same : k = key
    · subst same
      have others : (rest.map fun entry => if entry.1 = k then (entry.1,save entry.2) else entry) = rest := by
        conv_rhs => rw [←List.map_id rest]
        apply List.map_congr_left
        intro entry member
        exact if_neg fun equal => absent (List.mem_map.mpr ⟨entry,member,equal⟩)
      simp [put_cons,others]
    · simp only [same,if_false]
      cases stored : Table.row rest key with
      | none =>
        rw [stored] at tail
        simp only [Option.map_none] at tail ⊢
        rw [←tail]
      | some row =>
        rw [stored] at tail
        simp only [Option.map_some] at tail ⊢
        rw [put_cons,if_neg same,tail]

theorem updates_map {keys : List Nat} {table : Table V} (distinct : keys.Nodup) (keyed : table.Keyed) (save : V → V) :
    applyWrites table (keys.map fun k => Write.update k save) =
      table.map fun entry => if entry.1 ∈ keys then (entry.1,save entry.2) else entry := by
  induction keys generalizing table with
  | nil => simp [applyWrites]
  | cons k rest ih =>
    obtain ⟨absent,tail⟩ := List.nodup_cons.mp distinct
    have later := ih tail (apply_keyed (.update k save) keyed)
    rw [update_map keyed,List.map_map] at later
    refine Eq.trans ?_ (later.trans (List.map_congr_left fun entry _ => ?_))
    · rw [←update_map keyed]
      rfl
    · by_cases same : entry.1 = k
      · simp [same,absent]
      · simp [same]

theorem row_exact {table : Table V} (keyed : table.Keyed) : (key,value) ∈ table ↔ table.row key = some value := by
  induction table with
  | nil => simp
  | cons entry rest ih =>
    obtain ⟨k,v⟩ := entry
    have absent : k ∉ rest.map (·.1) := (List.nodup_cons.mp keyed).1
    have tail : Table.Keyed rest := (List.nodup_cons.mp keyed).2
    rw [List.mem_cons,ih tail,row_cons]
    constructor
    · rintro (head | old)
      · cases head; simp
      · have here : key ∈ rest.map (·.1) := List.mem_map.mpr ⟨(key,value),(ih tail).mpr old,rfl⟩
        have different : k ≠ key := fun same => absent (same ▸ here)
        simpa [different] using old
    · intro found
      by_cases same : k = key
      · subst same
        simp at found
        exact .inl (by rw [found])
      · exact .inr (by simpa [same] using found)

theorem select_row {table : Table V} (keyed : table.Keyed) (member : (key,value) ∈ table.select sel) :
    table.row key = some value ∧ sel key value = true := by
  obtain ⟨found,selected⟩ := List.mem_filter.mp member
  exact ⟨(row_exact keyed).mp found,selected⟩

@[simp] theorem slice_nil (key : Nat) : slice ([] : Journal J) key = [] := rfl
@[simp] theorem slice_append (left right : Journal J) (key : Nat) :
    slice (left ++ right) key = slice left key ++ slice right key := by
  simp [slice]
theorem slice_cons (entry : Nat × J) (rest : Journal J) (key : Nat) :
    slice (entry :: rest) key = if entry.1 = key then entry.2 :: slice rest key else slice rest key := by
  by_cases same : entry.1 = key
  · simp [slice,same]
  · simp [slice,same]
theorem slice_absent {journal : Journal J} (absent : ∀ entry ∈ journal,entry.1 ≠ key) : slice journal key = [] := by
  simpa [slice,List.filterMap_eq_nil_iff] using absent

-- Entries written for one key, for every row of a table, for every key of a list.
theorem slice_own (id key : Nat) (entries : List J) : slice (entries.map (id,·)) key = if id = key then entries else [] := by
  by_cases same : id = key
  · subst same
    rw [if_pos rfl]
    induction entries with
    | nil => rfl
    | cons entry rest ih => rw [List.map_cons,slice_cons,if_pos rfl,ih]
  · rw [if_neg same]
    apply slice_absent
    intro entry member
    obtain ⟨_,-,rfl⟩ := List.mem_map.mp member
    exact same
theorem slice_rows {table : Table V} (keyed : table.Keyed) (entries : V → List J) (key : Nat) :
    slice (table.flatMap fun entry => (entries entry.2).map (entry.1,·)) key = ((table.row key).map entries).getD [] := by
  induction table with
  | nil => rfl
  | cons entry rest ih =>
    obtain ⟨absent,tail⟩ := List.nodup_cons.mp keyed
    rw [List.flatMap_cons,slice_append,slice_own,row_cons,ih tail]
    by_cases same : entry.1 = key
    · have gone : Table.row rest key = none := row_none.mpr (same ▸ absent)
      simp [same,gone]
    · simp [same]
theorem slice_keys {keys : List Nat} (distinct : keys.Nodup) (entries : Nat → List J) (key : Nat) :
    slice (keys.flatMap fun k => (entries k).map (k,·)) key = if key ∈ keys then entries key else [] := by
  induction keys with
  | nil => rfl
  | cons k rest ih =>
    obtain ⟨absent,tail⟩ := List.nodup_cons.mp distinct
    rw [List.flatMap_cons,slice_append,slice_own,ih tail]
    by_cases same : k = key
    · subst same
      simp [absent]
    · simp [same,Ne.symm same]
-- Of a journal with one entry for each key, a front has a key's entry or none for it.
theorem slice_front {journal : Journal J} (distinct : (journal.map (·.1)).Nodup) (n key : Nat) :
    slice (journal.take n) key = if key ∈ (journal.take n).map (·.1) then slice journal key else [] := by
  induction journal generalizing n with
  | nil => simp
  | cons entry rest ih =>
    obtain ⟨absent,tail⟩ := List.nodup_cons.mp distinct
    cases n with
    | zero => simp
    | succ n =>
      rw [List.take_succ_cons,slice_cons,slice_cons,ih tail,List.map_cons]
      by_cases same : entry.1 = key
      · have none : slice rest key = [] := slice_absent fun other member here => absent (List.mem_map.mpr ⟨other,member,here.trans same.symm⟩)
        simp [same,none]
      · simp [same,Ne.symm same]

-- The rows of a table picked out in the order of a list.
theorem pick_keys {table : Table V} (keys : List Nat) : ∀ entry ∈ keys.filterMap fun k => table.find? fun entry => entry.1 == k,entry.1 ∈ keys := by
  intro entry member
  obtain ⟨k,listed,found⟩ := List.mem_filterMap.mp member
  have here := List.find?_some found
  simp only [beq_iff_eq] at here
  exact here ▸ listed
theorem pick_keyed {table : Table V} {keys : List Nat} (distinct : keys.Nodup) :
    Table.Keyed (keys.filterMap fun k => table.find? fun entry => entry.1 == k) := by
  induction keys with
  | nil => exact List.nodup_nil
  | cons k rest ih =>
    obtain ⟨absent,tail⟩ := List.nodup_cons.mp distinct
    rw [List.filterMap_cons]
    split
    · exact ih tail
    · rename_i entry found
      have here := List.find?_some found
      simp only [beq_iff_eq] at here
      refine List.nodup_cons.mpr ⟨?_,ih tail⟩
      intro member
      obtain ⟨other,picked,same⟩ := List.mem_map.mp member
      have inRest := pick_keys rest other picked
      rw [show other.1 = k from same.trans here] at inRest
      exact absent inRest
theorem row_pick {table : Table V} {keys : List Nat} (key : Nat) :
    Table.row (keys.filterMap fun k => table.find? fun entry => entry.1 == k) key = if key ∈ keys then table.row key else none := by
  induction keys with
  | nil => rfl
  | cons k rest ih =>
    rw [List.filterMap_cons]
    split
    · rename_i gone
      rw [ih]
      by_cases same : key = k
      · subst same
        have none : table.row key = none := by rw [Table.row,gone]; rfl
        simp [none]
      · simp [same]
    · rename_i entry found
      have here := List.find?_some found
      simp only [beq_iff_eq] at here
      rw [row_cons,ih]
      by_cases same : entry.1 = key
      · have stored : table.row key = some entry.2 := by rw [Table.row,←same,here,found]; rfl
        have listed : key = k := same.symm.trans here
        rw [if_pos same,if_pos (listed ▸ List.mem_cons_self),stored]
      · have other : key ≠ k := fun listed => same (here.trans listed.symm)
        simp [same,other]

end Elchi.RowLock

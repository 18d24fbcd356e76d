import Elchi.Common
import Elchi.ActivityLog
import Elchi.MergedWindows
namespace Elchi.Activity
open Windows

-- A bound on created_at: the time it parses to, in milliseconds, and whether the text is a bare date.
structure DateBound where
  time : Option Int
  dateOnly : Bool
deriving DecidableEq, Repr

structure ActivityFilters where
  entity_type : Option String
  entity_id : Option String
  action : Option String
  user_id : Option String
  user_role : Option String
  trace_id : Option String
  fromDate : Option DateBound
  toDate : Option DateBound
  search : Option String
deriving DecidableEq, Repr

-- PostgreSQL's LIKE: `%` stands for any text, `_` for one character, a backslash takes the next as it is.
def like : List Char → List Char → Bool
  | [],text => text.isEmpty
  | '%' :: pattern,text => text.tails.any (like pattern)
  | '_' :: pattern,text => match text with
    | [] => false
    | _ :: rest => like pattern rest
  | '\\' :: exactly :: pattern,text => match text with
    | [] => false
    | c :: rest => c == exactly && like pattern rest
  | exactly :: pattern,text => match text with
    | [] => false
    | c :: rest => c == exactly && like pattern rest
-- ILIKE compares case-folded text; a null column is like nothing.
def ilike (fold : Char → Char) (column : Option String) (pattern : String) : Bool :=
  column.any fun text => like (pattern.toList.map fold) (text.toList.map fold)
def given (text : Option String) : Option String := text.filter (· ≠ "")
def contains (text : String) : String := "%" ++ text ++ "%"

-- The conditions query adds, one for each filter that is given; created_at counts microseconds.
def ActivityFilters.accepts (fold : Char → Char) (q : ActivityFilters) (row : ActivityLog) : Bool :=
  (given q.entity_type).all (· == row.entity_type) &&
  (given q.entity_id).all (· == row.entity_id) &&
  (given q.action).all (· == row.action) &&
  (given q.user_id).all (fun id => row.user_id == some id) &&
  (given q.user_role).all (fun role => ilike fold row.user_role (contains role)) &&
  (given q.trace_id).all (fun id => row.trace_id == some id) &&
  (q.fromDate.bind (·.time)).all (fun time => time * 1000 ≤ (row.created_at : Int)) &&
  (q.toDate.bind fun bound => bound.time.map fun time => if bound.dateOnly then time + 86400000 - 1 else time).all
    (fun time => (row.created_at : Int) ≤ time * 1000) &&
  (given (q.search.map jsTrim)).all fun term =>
    ilike fold (some row.entity_type) (contains term) || ilike fold (some row.entity_id) (contains term) ||
      ilike fold (some row.action) (contains term) || ilike fold row.user_name (contains term)

-- ORDER BY created_at DESC, id DESC.
def Newer (a b : ActivityLog) : Prop := b.created_at < a.created_at ∨ b.created_at = a.created_at ∧ b.id ≤ a.id
instance : DecidableRel Newer := fun _ _ => inferInstanceAs (Decidable (_ ∨ _ ∧ _))

structure Meta where
  page : Nat
  limit : Nat
  total : Nat
  totalPages : Nat
deriving DecidableEq, Repr
def pageMeta (page limit total : Nat) : Meta := ⟨page,limit,total,max 1 ((total + limit - 1) / limit)⟩
def positiveOr (value : Option Int) (fallback : Nat) : Nat := if 0 < value.getD 0 then (value.getD 0).toNat else fallback

def matching (fold : Char → Char) (filters : ActivityFilters) (table : List ActivityLog) : List ActivityLog :=
  (table.filter (filters.accepts fold)).insertionSort Newer
def query (fold : Char → Char) (filters : ActivityFilters) (page limit : Option Int) (table : List ActivityLog) : List ActivityLog × Meta :=
  let page := positiveOr page 1
  let limit := min (positiveOr limit 50) 500
  let found := matching fold filters table
  (Windows.page found page limit,pageMeta page limit found.length)

-- A service the feed asks, with its table; none where the call fails or is not answered in time.
structure ServiceLeg where
  name : String
  table : Option (List ActivityLog)

-- A row as the gateway has it: with its service, and created_at to the millisecond.
abbrev FeedRow := String × ActivityLog
def FeedRow.time (row : FeedRow) : Nat := row.2.created_at / 1000
-- What sort puts first, or leaves first, by byNewest.
def ByNewest (a b : FeedRow) : Prop := b.time < a.time ∨ b.time = a.time ∧ b.2.id ≤ a.2.id
instance : DecidableRel ByNewest := fun _ _ => inferInstanceAs (Decidable (_ ∨ _ ∧ _))

structure ActivityLogQueryDto where
  page : Option Int
  limit : Option Int
  service : Option String
  filters : ActivityFilters

def WINDOW_CAP : Nat := 500
def asked (services : List ServiceLeg) (service : Option String) : List ServiceLeg :=
  match given service with
  | none => services
  | some name => services.filter (·.name == name)
def legItems (fold : Char → Char) (filters : ActivityFilters) (window : Nat) (leg : ServiceLeg) : List FeedRow × Nat :=
  match leg.table with
  | none => ([],0)
  | some table =>
    let (items,answered) := query fold filters (some 1) (some window) table
    (items.map (leg.name,·),answered.total)

def list (fold : Char → Char) (services : List ServiceLeg) (q : ActivityLogQueryDto) : List FeedRow × Meta :=
  let page := positiveOr q.page 1
  let limit := if 0 < q.limit.getD 0 then min (q.limit.getD 0).toNat 100 else 20
  let window := min WINDOW_CAP (page * limit)
  let responses := (asked services q.service).map (legItems fold q.filters window)
  let merged := (responses.flatMap (·.1)).insertionSort ByNewest
  (Windows.page merged page limit,pageMeta page limit (responses.map (·.2)).sum)

section Feed
variable {fold : Char → Char} {services : List ServiceLeg} {q : ActivityLogQueryDto} {filters : ActivityFilters} {window : Nat}

instance : Std.Total ByNewest := ⟨fun a b => by unfold ByNewest; omega⟩
instance : IsTrans FeedRow ByNewest := ⟨fun a b c first second => by unfold ByNewest at *; omega⟩
instance : Std.Total Newer := ⟨fun a b => by unfold Newer; omega⟩
instance : IsTrans ActivityLog Newer := ⟨fun a b c first second => by unfold Newer at *; omega⟩

def pageOf (q : ActivityLogQueryDto) : Nat := positiveOr q.page 1
def limitOf (q : ActivityLogQueryDto) : Nat := if 0 < q.limit.getD 0 then min (q.limit.getD 0).toNat 100 else 20

-- All that the asked services have which answer, newest first: what the pages should be cut from.
def legRows (fold : Char → Char) (filters : ActivityFilters) (leg : ServiceLeg) : Option (List FeedRow) :=
  leg.table.map fun table => (matching fold filters table).map (leg.name,·)
def answered (fold : Char → Char) (services : List ServiceLeg) (q : ActivityLogQueryDto) : List (List FeedRow) :=
  (asked services q.service).filterMap (legRows fold q.filters)
def feed (fold : Char → Char) (services : List ServiceLeg) (q : ActivityLogQueryDto) : List FeedRow :=
  (answered fold services q).flatten.insertionSort ByNewest

-- Rows of one millisecond have their ids in the order of their times: the gateway cannot tell them
-- apart by time as the table can.
def Aligned (table : List ActivityLog) : Prop := ∀ a ∈ table,∀ b ∈ table,
  a.created_at / 1000 = b.created_at / 1000 → a.created_at < b.created_at → a.id ≤ b.id
instance (table : List ActivityLog) : Decidable (Aligned table) := inferInstanceAs (Decidable (∀ a ∈ table,∀ b ∈ table,_ → _ → _))
-- The page ends within the window, or the window holds all that any service has.
def WithinWindow (fold : Char → Char) (services : List ServiceLeg) (q : ActivityLogQueryDto) : Prop :=
  pageOf q * limitOf q ≤ WINDOW_CAP ∨ ∀ rows ∈ answered fold services q,rows.length ≤ WINDOW_CAP

theorem positiveOr_pos {value : Option Int} {fallback : Nat} (positive : 0 < fallback) : 0 < positiveOr value fallback := by
  unfold positiveOr
  split
  · omega
  · exact positive
theorem limitOf_pos (q : ActivityLogQueryDto) : 0 < limitOf q := by
  unfold limitOf
  split
  · omega
  · decide

theorem query_window (positive : 0 < window) (short : window ≤ 500) (table : List ActivityLog) :
    (query fold filters (some 1) (some window) table).1 = (matching fold filters table).take window := by
  have size : min (positiveOr (some (window : Int)) 50) 500 = window := by
    rw [positiveOr,if_pos (by simpa using positive)]
    simpa using short
  rw [query,size]
  exact Windows.page_first _ _
theorem legItems_rows (fold : Char → Char) (filters : ActivityFilters) (positive : 0 < window) (short : window ≤ 500) (leg : ServiceLeg) :
    (legItems fold filters window leg).1 = ((legRows fold filters leg).map (·.take window)).getD [] ∧
      (legItems fold filters window leg).2 = ((legRows fold filters leg).map (·.length)).getD 0 := by
  obtain ⟨name,table⟩ := leg
  cases table with
  | none => exact ⟨rfl,rfl⟩
  | some table =>
    constructor
    · exact (congrArg (List.map (name,·)) (query_window positive short table)).trans List.map_take
    · exact (List.length_map _).symm
theorem legs_rows (fold : Char → Char) (filters : ActivityFilters) (positive : 0 < window) (short : window ≤ 500) (legs : List ServiceLeg) :
    (legs.map (legItems fold filters window)).flatMap (·.1) = (legs.filterMap (legRows fold filters)).flatMap (·.take window) ∧
      ((legs.map (legItems fold filters window)).map (·.2)).sum = (legs.filterMap (legRows fold filters)).flatten.length := by
  induction legs with
  | nil => exact ⟨rfl,rfl⟩
  | cons leg rest ih =>
    obtain ⟨items,total⟩ := legItems_rows fold filters positive short leg
    simp only [List.map_cons,List.flatMap_cons,List.sum_cons,ih.1,ih.2,items,total,List.filterMap_cons]
    cases legRows fold filters leg with
    | none => simp
    | some rows => simp

theorem legRows_sorted {leg : ServiceLeg} {rows : List FeedRow} (aligned : ∀ table,leg.table = some table → Aligned table)
    (found : legRows fold filters leg = some rows) : rows.Pairwise ByNewest := by
  obtain ⟨table,stored,rfl⟩ := Option.map_eq_some_iff.mp found
  have inside : ∀ row ∈ matching fold filters table,row ∈ table := fun row member =>
    List.mem_of_mem_filter ((List.mem_insertionSort _).mp member)
  rw [List.pairwise_map]
  refine (List.pairwise_insertionSort Newer (table.filter (filters.accepts fold))).imp_of_mem fun {a b} here there newer => ?_
  have near := aligned table stored b (inside b there) a (inside a here)
  unfold ByNewest FeedRow.time
  rcases newer with later | ⟨same,above⟩
  · have hour : b.created_at / 1000 ≤ a.created_at / 1000 := Nat.div_le_div_right (Nat.le_of_lt later)
    rcases Nat.lt_or_eq_of_le hour with apart | alike
    · exact .inl apart
    · exact .inr ⟨alike,near alike later⟩
  · exact .inr ⟨congrArg (· / 1000) same,above⟩

-- The window asked of every service, and what becomes of the answers.
theorem list_parts (fold : Char → Char) (services : List ServiceLeg) (q : ActivityLogQueryDto) :
    list fold services q =
      (Windows.page (((answered fold services q).flatMap (·.take (min WINDOW_CAP (pageOf q * limitOf q)))).insertionSort ByNewest) (pageOf q) (limitOf q),
        pageMeta (pageOf q) (limitOf q) (feed fold services q).length) := by
  have positive : 0 < min WINDOW_CAP (pageOf q * limitOf q) :=
    Nat.lt_min.mpr ⟨by decide,Nat.mul_pos (positiveOr_pos Nat.one_pos) (limitOf_pos q)⟩
  obtain ⟨items,total⟩ := legs_rows fold q.filters positive (Nat.min_le_left _ _) (asked services q.service)
  rw [feed,List.length_insertionSort,answered,←items,←total]
  rfl

theorem list_page (fold : Char → Char) (services : List ServiceLeg) (q : ActivityLogQueryDto)
    (aligned : ∀ leg ∈ asked services q.service,∀ table,leg.table = some table → Aligned table)
    (within : WithinWindow fold services q) : (list fold services q).1 = Windows.page (feed fold services q) (pageOf q) (limitOf q) := by
  have sorted : ∀ rows ∈ answered fold services q,rows.Pairwise ByNewest := by
    intro rows member
    obtain ⟨leg,listed,found⟩ := List.mem_filterMap.mp member
    exact legRows_sorted (aligned leg listed) found
  rw [list_parts]
  by_cases fits : pageOf q * limitOf q ≤ WINDOW_CAP
  · -- the page is cut from the first rows of the merge, and those are the first of the feed
    have cut : ∀ rows : List FeedRow,Windows.page (rows.take (pageOf q * limitOf q)) (pageOf q) (limitOf q) =
        Windows.page rows (pageOf q) (limitOf q) := Windows.page_take (positiveOr_pos Nat.one_pos) (Nat.le_refl _)
    rw [Nat.min_eq_right fits,←cut,Windows.merged_windows sorted,cut,feed]
  · have whole : ∀ rows ∈ answered fold services q,rows.take WINDOW_CAP = rows := fun rows member =>
      List.take_of_length_le (within.resolve_left fits rows member)
    rw [Nat.min_eq_left (by omega),feed,List.flatMap_congr whole,List.flatMap_id']

-- Whatever is shown is in a table of a service asked for, fits the filters, and is in order.
theorem list_sound (fold : Char → Char) (services : List ServiceLeg) (q : ActivityLogQueryDto) :
    (list fold services q).1.Pairwise ByNewest ∧ ∀ row ∈ (list fold services q).1,∃ leg ∈ asked services q.service,
      leg.name = row.1 ∧ ∃ table,leg.table = some table ∧ row.2 ∈ table ∧ q.filters.accepts fold row.2 = true := by
  rw [list_parts]
  constructor
  · exact (List.pairwise_insertionSort ByNewest _).sublist ((List.take_sublist _ _).trans (List.drop_sublist _ _))
  · intro row shown
    have merged := (List.mem_insertionSort _).mp (List.mem_of_mem_drop (List.mem_of_mem_take shown))
    obtain ⟨rows,member,first⟩ := List.mem_flatMap.mp merged
    obtain ⟨leg,listed,found⟩ := List.mem_filterMap.mp member
    obtain ⟨table,stored,rfl⟩ := Option.map_eq_some_iff.mp found
    obtain ⟨entry,kept,rfl⟩ := List.mem_map.mp (List.mem_of_mem_take first)
    obtain ⟨inside,accepted⟩ := List.mem_filter.mp ((List.mem_insertionSort _).mp kept)
    exact ⟨leg,listed,rfl,table,stored,inside,accepted⟩

-- The pages one after the other are the feed from its newest row on.
theorem list_pages (aligned : ∀ leg ∈ asked services q.service,∀ table,leg.table = some table → Aligned table)
    {count : Nat} (fits : count * limitOf q ≤ WINDOW_CAP) :
    (List.range count).flatMap (fun (i : Nat) => (list fold services {q with page:=some (i + 1)}).1) =
      (feed fold services q).take (count * limitOf q) := by
  rw [←Windows.pages_take]
  refine List.flatMap_congr fun i inside => ?_
  have number : pageOf {q with page:=some ((i : Int) + 1)} = i + 1 := by
    rw [pageOf,positiveOr,if_pos (by simp only [Option.getD_some]; omega)]
    simp only [Option.getD_some]
    omega
  have ends : (i + 1) * limitOf q ≤ WINDOW_CAP :=
    (Nat.mul_le_mul_right _ (List.mem_range.mp inside)).trans fits
  have cut := list_page fold services {q with page:=some ((i : Int) + 1)} aligned (.inl (by rw [number]; exact ends))
  rw [cut,number]
  rfl

end Feed

-- Two services that answer and one that does not, two rows a page.
def entry (id : Nat) (action : String) (time : Nat) : ActivityLog :=
  ⟨id,"Order","7",action,none,none,none,none,none,none,none,none,time⟩
def twoServices : List ServiceLeg :=
  [⟨"order",some [entry 1 "created" 1000,entry 2 "sold" 5000,entry 3 "sold" 9000]⟩,⟨"finance",some [entry 1 "paid" 6000]⟩,⟨"branch",none⟩]
def everything : ActivityLogQueryDto := ⟨none,some 2,none,⟨none,none,none,none,none,none,none,none,none⟩⟩
end Elchi.Activity

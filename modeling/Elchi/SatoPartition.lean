import Elchi.SatoMatcher
namespace Elchi.Sato
open Elchi.Logistics (groupBy groupBy_parts groupBy_keys groupBy_apart groupBy_covers)
variable {ρ : Type} {matcher : Matcher ρ} {forms : TextForms}

def Matcher.keyOf (matcher : Matcher ρ) (forms : TextForms) (row : ρ) : String :=
  normalizeForDuplicateCheck forms (matcher.name row)
def repeated (groups : List (String × List ρ)) : List (String × List ρ) := groups.filter (·.2.length > 1)
def duplicatesOf (matcher : Matcher ρ) (forms : TextForms) (rows : List ρ) : List (String × List ρ) :=
  repeated (groupBy (matcher.keyOf forms) rows)
def duplicateIds (matcher : Matcher ρ) (forms : TextForms) (rows : List ρ) : List String :=
  (duplicatesOf matcher forms rows).flatMap (·.2.map matcher.id)
def single (matcher : Matcher ρ) (forms : TextForms) (rows : List ρ) (row : ρ) : Bool :=
  !(duplicateIds matcher forms rows).contains (matcher.id row)

section Folds
variable (matcher forms)

theorem noteDuplicates_all (groups : List (String × List ρ)) (result : MatchResult) (ids : List String) :
    groups.foldl (noteDuplicates matcher) (result,ids) =
      ({result with
          duplicates:=result.duplicates ++ (repeated groups).map fun group => matcher.describe group.2
          stats:={result.stats with
            duplicatesCount:=result.stats.duplicatesCount + ((repeated groups).map (·.2.length)).sum}},
        ids ++ (repeated groups).flatMap (·.2.map matcher.id)) := by
  induction groups generalizing result ids with
  | nil => simp [repeated]
  | cons group rest ih =>
    by_cases many : group.2.length > 1
    · have kept : repeated (group :: rest) = group :: repeated rest := List.filter_cons_of_pos (by simpa using many)
      rw [List.foldl_cons,noteDuplicates,if_pos many,ih,kept]
      simp [MatchResult.addDuplicate,Nat.add_assoc]
    · have dropped : repeated (group :: rest) = repeated rest := List.filter_cons_of_neg (by simpa using many)
      rw [List.foldl_cons,noteDuplicates,if_neg many,ih,dropped]

-- The rows outside the duplicate names go to one list or the other; every row marks its code.
theorem matchRow_all (ids : List String) (rows : List ρ) (result : MatchResult) (used : List String) :
    let fresh := rows.filter fun row => !ids.contains (matcher.id row)
    rows.foldl (matchRow matcher ids) (result,used) =
      ({result with
          matched:=result.matched ++ fresh.filterMap matcher.entryOf
          unmatched:=result.unmatched ++ (fresh.filter fun row => (matcher.entryOf row).isNone).map matcher.leftover
          stats:={result.stats with
            matchedCount:=result.stats.matchedCount + (fresh.filterMap matcher.entryOf).length
            unmatchedCount:=result.stats.unmatchedCount + (fresh.filter fun row => (matcher.entryOf row).isNone).length}},
        used ++ rows.filterMap matcher.codeOf) := by
  induction rows generalizing result used with
  | nil => simp
  | cons row rest ih =>
    rw [List.foldl_cons]
    cases got : matcher.entryOf row with
    | none =>
      cases twin : ids.contains (matcher.id row) with
      | true => simp_all [matchRow,Matcher.codeOf]
      | false => simp_all [matchRow,Matcher.codeOf,MatchResult.addUnmatched,Nat.add_assoc,Nat.add_comm 1]
    | some entry =>
      cases twin : ids.contains (matcher.id row) with
      | true => simp_all [matchRow,Matcher.codeOf]
      | false => simp_all [matchRow,Matcher.codeOf,MatchResult.addMatched,Nat.add_assoc,Nat.add_comm 1]

theorem noteMissing_all (used : List String) (entries : List MissingSato) (result : MatchResult) :
    let missing := entries.filter fun entry => !used.contains entry.satoCode
    entries.foldl (noteMissing used) result =
      {result with
        missingSatoEntries:=result.missingSatoEntries ++ missing
        stats:={result.stats with missingCount:=result.stats.missingCount + missing.length}} := by
  induction entries generalizing result with
  | nil => simp
  | cons entry rest ih =>
    rw [List.foldl_cons]
    cases there : used.contains entry.satoCode with
    | true => simp_all [noteMissing]
    | false => simp_all [noteMissing,MatchResult.addMissing,Nat.add_assoc,Nat.add_comm 1]

def unused (rows : List ρ) : List MissingSato :=
  matcher.entries.filter fun entry => !(rows.filterMap matcher.codeOf).contains entry.satoCode
theorem matchRows_exact (rows : List ρ) :
    let fresh := rows.filter (single matcher forms rows)
    let left := fresh.filter fun row => (matcher.entryOf row).isNone
    matchRows forms matcher rows =
      {matched:=fresh.filterMap matcher.entryOf,unmatched:=left.map matcher.leftover
       duplicates:=(duplicatesOf matcher forms rows).map fun group => matcher.describe group.2
       missingSatoEntries:=unused matcher rows
       stats:={totalDb:=rows.length,totalSato:=matcher.totalSato,matchedCount:=(fresh.filterMap matcher.entryOf).length
               unmatchedCount:=left.length
               duplicatesCount:=((duplicatesOf matcher forms rows).map (·.2.length)).sum
               missingCount:=(unused matcher rows).length}} := by
  simp only [matchRows,noteDuplicates_all,matchRow_all,noteMissing_all,List.nil_append,Nat.zero_add]
  rfl
end Folds

-- In a list without repetition a member is alone exactly when the list is no longer than one.
theorem alone_or_more {items : List α} (distinct : items.Nodup) (member : x ∈ items) : 1 < items.length ↔ ∃ y ∈ items,y ≠ x := by
  constructor
  · intro many
    by_contra none
    push Not at none
    have short : items.length ≤ [x].length := (List.subperm_of_subset distinct fun y there =>
      List.mem_singleton.mpr (none y there)).length_le
    exact absurd many (by simpa using short)
  · rintro ⟨y,there,apart⟩
    have both : [x,y].Subperm items := List.subperm_of_subset (by simpa using apart.symm) (by simp [member,there])
    exact both.length_le

section Groups
variable {rows : List ρ} (keyed : (rows.map matcher.id).Nodup)
include keyed

theorem duplicate_mem (row : ρ) : row ∈ (duplicatesOf matcher forms rows).flatMap (·.2) ↔
    row ∈ rows ∧ ∃ other ∈ rows,matcher.id other ≠ matcher.id row ∧ matcher.keyOf forms other = matcher.keyOf forms row := by
  have distinct : rows.Nodup := keyed.of_map
  constructor
  · intro inside
    obtain ⟨group,listed,within⟩ := List.mem_flatMap.mp inside
    obtain ⟨there,many⟩ := List.mem_filter.mp listed
    have many : 1 < group.2.length := by simpa using many
    rw [groupBy_parts there] at within many
    obtain ⟨present,same⟩ := List.mem_filter.mp within
    obtain ⟨other,found,apart⟩ := (alone_or_more (distinct.filter _) within).mp many
    obtain ⟨member,alike⟩ := List.mem_filter.mp found
    refine ⟨present,other,member,fun ids => apart (List.inj_on_of_nodup_map keyed member present ids),?_⟩
    exact (beq_iff_eq.mp alike).trans (beq_iff_eq.mp same).symm
  · rintro ⟨present,other,member,apart,alike⟩
    obtain ⟨group,there,within⟩ := groupBy_covers (matcher.keyOf forms) present
    refine List.mem_flatMap.mpr ⟨group,List.mem_filter.mpr ⟨there,?_⟩,within⟩
    have parts := groupBy_parts there
    have same : matcher.keyOf forms row = group.1 := by
      rw [parts] at within
      exact beq_iff_eq.mp (List.mem_filter.mp within).2
    have found : other ∈ group.2 := by
      rw [parts]
      exact List.mem_filter.mpr ⟨member,beq_iff_eq.mpr (alike.trans same)⟩
    have nodup : group.2.Nodup := parts ▸ distinct.filter _
    simpa using (alone_or_more nodup within).mpr ⟨other,found,fun equal => apart (by rw [equal])⟩

theorem single_exact {row : ρ} (present : row ∈ rows) : single matcher forms rows row = true ↔
    ∀ other ∈ rows,matcher.id other ≠ matcher.id row → matcher.keyOf forms other ≠ matcher.keyOf forms row := by
  have listed : matcher.id row ∈ duplicateIds matcher forms rows ↔ row ∈ (duplicatesOf matcher forms rows).flatMap (·.2) := by
    rw [duplicateIds,←List.map_flatMap]
    constructor
    · intro inside
      obtain ⟨twin,there,same⟩ := List.mem_map.mp inside
      have member := ((duplicate_mem keyed twin).mp there).1
      rwa [←List.inj_on_of_nodup_map keyed member present same]
    · exact List.mem_map_of_mem
  rw [single,Bool.not_eq_true',List.contains_eq_mem,decide_eq_false_iff_not,listed,duplicate_mem keyed]
  grind

-- The groups of the duplicate names hold exactly the rows that are not single, each once.
theorem duplicates_perm : ((duplicatesOf matcher forms rows).flatMap (·.2)).Perm
    (rows.filter fun row => !single matcher forms rows row) := by
  have distinct : rows.Nodup := keyed.of_map
  have groups : (duplicatesOf matcher forms rows).Pairwise (·.1 ≠ ·.1) := by
    refine List.Pairwise.filter _ (List.pairwise_map.mp ?_)
    rw [groupBy_keys]
    exact Batches.eraseDups_nodup _
  have apart : ((duplicatesOf matcher forms rows).flatMap (·.2)).Nodup := by
    refine List.nodup_flatMap.mpr ⟨fun group listed => ?_,?_⟩
    · rw [groupBy_parts (List.mem_of_mem_filter listed)]
      exact distinct.filter _
    · refine groups.imp_of_mem fun here there other x inside within => ?_
      exact groupBy_apart keyed (List.mem_of_mem_filter here) (List.mem_of_mem_filter there) other inside within rfl
  refine (List.perm_ext_iff_of_nodup apart (distinct.filter _)).mpr fun row => ?_
  rw [List.mem_filter,duplicate_mem keyed]
  refine and_congr_right fun present => ?_
  rw [Bool.not_eq_true',←Bool.not_eq_true,single_exact keyed present]
  grind

end Groups

def MatchResult.duplicateEntries (result : MatchResult) : List DuplicateEntry := result.duplicates.flatMap (·.entries)
def MatchResult.ids (result : MatchResult) : List String :=
  result.matched.map (·.dbId) ++ result.unmatched.map (·.dbId) ++ result.duplicateEntries.map (·.id)
-- Every row is in one of the three lists, the counts are the sizes of the lists, and an entry is missing when no row has its code.
structure Partitions (forms : TextForms) (matcher : Matcher ρ) (rows : List ρ) (result : MatchResult) : Prop where
  once : result.ids.Perm (rows.map matcher.id)
  duplicate : ∀ row ∈ rows,matcher.id row ∈ result.duplicateEntries.map (·.id) ↔
    ∃ other ∈ rows,matcher.id other ≠ matcher.id row ∧
      normalizeForDuplicateCheck forms (matcher.name other) = normalizeForDuplicateCheck forms (matcher.name row)
  totalDb : result.stats.totalDb = rows.length
  matchedCount : result.stats.matchedCount = result.matched.length
  unmatchedCount : result.stats.unmatchedCount = result.unmatched.length
  duplicatesCount : result.stats.duplicatesCount = result.duplicateEntries.length
  missingCount : result.stats.missingCount = result.missingSatoEntries.length
  sum : result.stats.matchedCount + result.stats.unmatchedCount + result.stats.duplicatesCount = result.stats.totalDb
  codes : ∀ entry ∈ result.matched,∃ row ∈ rows,matcher.id row = entry.dbId ∧ matcher.codeOf row = some entry.satoCode
  missing : ∀ entry ∈ matcher.entries,entry ∈ result.missingSatoEntries ↔ ∀ row ∈ rows,matcher.codeOf row ≠ some entry.satoCode

theorem describe_entries (groups : List (String × List ρ)) :
    ((groups.map fun group => matcher.describe group.2).flatMap (·.entries)).map (·.id) =
      (groups.flatMap (·.2)).map matcher.id := by
  induction groups with
  | nil => rfl
  | cons group rest ih => simp_all [matcher.describe_ids]
theorem single_split (rows : List ρ) :
    ((rows.filterMap matcher.entryOf).map (·.dbId) ++
        ((rows.filter fun row => (matcher.entryOf row).isNone).map matcher.leftover).map (·.dbId)).Perm (rows.map matcher.id) := by
  induction rows with
  | nil => exact .refl _
  | cons row rest ih =>
    cases got : matcher.entryOf row with
    | none =>
      simp only [List.filterMap_cons,got,List.filter_cons,Option.isNone_none,↓reduceIte,List.map_cons,matcher.leftover_id]
      exact List.perm_middle.trans (ih.cons _)
    | some entry =>
      simp only [List.filterMap_cons,got,List.filter_cons,Option.isNone_some,Bool.false_eq_true,↓reduceIte,List.map_cons,
        List.cons_append,matcher.entryOf_id got]
      exact ih.cons _

theorem matchRows_partitions {rows : List ρ} (keyed : (rows.map matcher.id).Nodup) :
    Partitions forms matcher rows (matchRows forms matcher rows) := by
  have exact := matchRows_exact matcher forms rows
  have twins : (matchRows forms matcher rows).duplicateEntries.map (·.id) =
      ((duplicatesOf matcher forms rows).flatMap (·.2)).map matcher.id := by
    rw [exact]
    exact describe_entries _
  have once : (matchRows forms matcher rows).ids.Perm (rows.map matcher.id) := by
    have halves := List.filter_append_perm (single matcher forms rows) rows
    rw [MatchResult.ids,twins,exact]
    refine ((single_split _).append ((duplicates_perm keyed).map _)).trans ?_
    rw [←List.map_append]
    exact halves.map _
  have duplicates : (matchRows forms matcher rows).stats.duplicatesCount = (matchRows forms matcher rows).duplicateEntries.length := by
    have sizes := congrArg List.length twins
    rw [List.length_map,List.length_map,List.length_flatMap] at sizes
    rw [sizes,exact]
  have matchedCount : (matchRows forms matcher rows).stats.matchedCount = (matchRows forms matcher rows).matched.length := by
    rw [exact]
  have unmatchedCount : (matchRows forms matcher rows).stats.unmatchedCount = (matchRows forms matcher rows).unmatched.length := by
    rw [exact,List.length_map]
  have totalDb : (matchRows forms matcher rows).stats.totalDb = rows.length := by rw [exact]
  refine ⟨once,fun row present => ?_,totalDb,matchedCount,unmatchedCount,duplicates,by rw [exact],?_,?_,?_⟩
  · rw [twins]
    constructor
    · intro inside
      obtain ⟨twin,there,same⟩ := List.mem_map.mp inside
      have parts := (duplicate_mem keyed twin).mp there
      obtain rfl := List.inj_on_of_nodup_map keyed parts.1 present same
      exact parts.2
    · exact fun other => List.mem_map_of_mem ((duplicate_mem keyed row).mpr ⟨present,other⟩)
  · have sizes := once.length_eq
    simp only [MatchResult.ids,List.length_append,List.length_map] at sizes
    rw [matchedCount,unmatchedCount,duplicates,totalDb,sizes]
  · intro entry listed
    rw [exact] at listed
    obtain ⟨row,fresh,got⟩ := List.mem_filterMap.mp listed
    exact ⟨row,List.mem_of_mem_filter fresh,(matcher.entryOf_id got).symm,by rw [Matcher.codeOf,got]; rfl⟩
  · intro entry listed
    rw [exact]
    simp only [unused,List.mem_filter,listed,true_and,Bool.not_eq_true',List.contains_eq_mem,decide_eq_false_iff_not,
      List.mem_filterMap,not_exists,not_and,ne_eq]

-- Neither the duplicates nor a row's code depend on the order of the rows.
theorem matchRows_perm {rows other : List ρ} (keyed : (rows.map matcher.id).Nodup) (same : other.Perm rows) :
    (matchRows forms matcher other).matched.Perm (matchRows forms matcher rows).matched := by
  have keyedOther : (other.map matcher.id).Nodup := (same.map _).nodup_iff.mpr keyed
  have alike : other.filter (single matcher forms other) = other.filter (single matcher forms rows) := by
    refine List.filter_congr fun row present => Bool.eq_iff_iff.mpr ?_
    rw [single_exact keyedOther present,single_exact keyed (same.mem_iff.mp present)]
    simp only [same.mem_iff]
  rw [matchRows_exact,matchRows_exact,alike]
  exact (same.filter _).filterMap _

-- The rows of either table, under their own ids, in any order.
theorem sato_matching (forms : TextForms) {dbRegions : List DbRegion} {dbDistricts : List DbDistrict}
    (regionIds : (dbRegions.map (·.id)).Nodup) (districtIds : (dbDistricts.map (·.id)).Nodup) :
    Partitions forms (regionMatcher forms) dbRegions (matchRegions forms dbRegions) ∧
      Partitions forms (districtMatcher forms) dbDistricts (matchDistricts forms dbDistricts) ∧
      (∀ others,others.Perm dbRegions → (matchRegions forms others).matched.Perm (matchRegions forms dbRegions).matched) ∧
      ∀ others,others.Perm dbDistricts → (matchDistricts forms others).matched.Perm (matchDistricts forms dbDistricts).matched :=
  ⟨matchRows_partitions regionIds,matchRows_partitions districtIds,fun _ same => matchRows_perm regionIds same,
    fun _ same => matchRows_perm districtIds same⟩
-- Two rows of one name beside a third that carries its code.
theorem sato_matching_three :
    let regions : List DbRegion := [⟨"a","Andijon",none⟩,⟨"b","Andijon",none⟩,⟨"c","Buxoro",some "1706"⟩]
    let districts : List DbDistrict := [⟨"d","Asaka tumani",none,some ⟨"a","Andijon"⟩⟩]
    Partitions plainForms (regionMatcher plainForms) regions (matchRegions plainForms regions) ∧
      Partitions plainForms (districtMatcher plainForms) districts (matchDistricts plainForms districts) ∧
      (∀ others,others.Perm regions → (matchRegions plainForms others).matched.Perm (matchRegions plainForms regions).matched) ∧
      ∀ others,others.Perm districts → (matchDistricts plainForms others).matched.Perm (matchDistricts plainForms districts).matched :=
  sato_matching plainForms (by decide) (by decide)

end Elchi.Sato

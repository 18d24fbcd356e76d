import Mathlib.Data.List.Pairwise
import Elchi.SatoPartition
namespace Elchi.Sato
variable {forms : TextForms}

-- Every match that is not marked as already present is written to its row.
def applyMatch (rows : List DbDistrict) (entry : Matched) : List DbDistrict :=
  if entry.satoName ≠ alreadyPresent then
    rows.map fun row => if row.id = entry.dbId then {row with satoCode:=some entry.satoCode} else row
  else rows
def applyDistrictSatoCodes (forms : TextForms) (dbDistricts : List DbDistrict) : List DbDistrict :=
  (matchDistricts forms dbDistricts).matched.foldl applyMatch dbDistricts

def carried (row : DbDistrict) : Option String := truthy row.satoCode
def allDistricts : List SatoDistrict := satoRegions.flatMap (·.districts)
def matchesRow (forms : TextForms) (row : DbDistrict) (district : SatoDistrict) : Bool := namesMatch forms row.name district.name
def Exact (forms : TextForms) (row : DbDistrict) (district : SatoDistrict) : Prop :=
  cleanName forms row.name = cleanName forms district.name
instance : Decidable (Exact forms row district) := inferInstanceAs (Decidable (_ = _))
-- The districts of the row's own region where one of them matches, else those of all regions.
def scope (forms : TextForms) (row : DbDistrict) : List SatoDistrict :=
  match namedRegion forms row with
  | some region => if region.districts.any (matchesRow forms row) then region.districts else allDistricts
  | none => allDistricts
theorem scope_unnamed (none : namedRegion forms row = none) : scope forms row = allDistricts := by rw [scope,none]
theorem districtSearch_unnamed (none : namedRegion forms row = none) :
    districtSearch forms row = satoRegions.findSome? (districtIn forms row) := by
  rw [districtSearch,none]
  rfl
def FirstMatch (forms : TextForms) (row : DbDistrict) (district : SatoDistrict) : Prop :=
  ∃ before after,scope forms row = before ++ district :: after ∧ matchesRow forms row district = true ∧
    ∀ earlier ∈ before,matchesRow forms row earlier = false

-- The code of a district opens with that of its region.
theorem codes_checked : (∀ region ∈ satoRegions,(region.districts.map (·.satoCode)).Nodup ∧
      ∀ district ∈ region.districts,district.satoCode.toList.take 4 = region.satoCode.toList) ∧
    (satoRegions.map (·.satoCode)).Nodup ∧ ∀ district ∈ allDistricts,district.satoCode ≠ "" := by decide +kernel
theorem codes_nested : ∀ region ∈ satoRegions,(region.districts.map (·.satoCode)).Nodup ∧
    ∀ district ∈ region.districts,district.satoCode.toList.take 4 = region.satoCode.toList := codes_checked.1
theorem regions_distinct : (satoRegions.map (·.satoCode)).Nodup := codes_checked.2.1
theorem codes_distinct : (allDistricts.map (·.satoCode)).Nodup := by
  rw [allDistricts,List.map_flatMap,List.nodup_flatMap]
  refine ⟨fun region listed => (codes_nested region listed).1,?_⟩
  refine (List.pairwise_map.mp regions_distinct).imp_of_mem fun {region other} here there apart code inside within => ?_
  obtain ⟨x,own,rfl⟩ := List.mem_map.mp inside
  obtain ⟨y,theirs,same⟩ := List.mem_map.mp within
  refine apart (String.toList_inj.mp ?_)
  rw [←(codes_nested region here).2 x own,←(codes_nested other there).2 y theirs,same]
theorem codes_filled : ∀ district ∈ allDistricts,district.satoCode ≠ "" := codes_checked.2.2
-- The mark has no bracket after its first character, a named district has.
theorem names_marked (name region : String) : name ++ " (" ++ region ++ ")" ≠ alreadyPresent := by
  intro same
  have bracket : '(' ∈ ((name ++ " (" ++ region ++ ")").toList).tail := by
    cases chars : name.toList with
    | nil => simp [String.toList_append,chars]
    | cons c rest => simp [String.toList_append,chars]
  rw [same] at bracket
  exact absurd bracket (by decide)
theorem code_determines (here : x ∈ allDistricts) (there : y ∈ allDistricts) (same : x.satoCode = y.satoCode) : x = y :=
  List.inj_on_of_nodup_map codes_distinct here there same

theorem namedRegion_listed (named : namedRegion forms row = some region) : region ∈ satoRegions := by
  obtain ⟨name,-,found⟩ := Option.bind_eq_some_iff.mp named
  exact List.mem_of_find?_eq_some found
theorem region_districts (listed : region ∈ satoRegions) (inside : district ∈ region.districts) : district ∈ allDistricts :=
  List.mem_flatMap.mpr ⟨region,listed,inside⟩
theorem scope_listed (inside : district ∈ scope forms row) : district ∈ allDistricts := by
  unfold scope at inside
  split at inside
  · split at inside
    · exact region_districts (namedRegion_listed ‹_›) inside
    · exact inside
  · exact inside
theorem Exact.matches (exact : Exact forms row district) : matchesRow forms row district = true := namesMatch_same exact
theorem firstMatch_find : FirstMatch forms row district ↔ (scope forms row).find? (matchesRow forms row) = some district := by
  rw [List.find?_eq_some_iff_append]
  constructor
  · rintro ⟨before,after,parts,found,none⟩
    exact ⟨found,before,after,parts,fun x member => by simpa using none x member⟩
  · rintro ⟨found,before,after,parts,none⟩
    exact ⟨before,after,parts,found,fun x member => by simpa using none x member⟩

-- The search and its scope agree, and the text of a search never reads as already present.
theorem districtIn_code (row : DbDistrict) (region : SatoRegion) :
    (districtIn forms row region).map (·.satoCode) = (region.districts.find? (matchesRow forms row)).map (·.satoCode) := by
  rw [districtIn,Option.map_map]
  rfl
theorem search_code (row : DbDistrict) :
    (districtSearch forms row).map (·.satoCode) = ((scope forms row).find? (matchesRow forms row)).map (·.satoCode) := by
  have everywhere : (satoRegions.findSome? (districtIn forms row)).map (·.satoCode) =
      (allDistricts.find? (matchesRow forms row)).map (·.satoCode) := by
    rw [allDistricts,List.find?_flatMap,List.map_findSome?,List.map_findSome?]
    exact congrArg (fun f => satoRegions.findSome? f) (funext fun region => districtIn_code row region)
  cases named : namedRegion forms row with
  | none => simpa only [districtSearch,scope,named,Option.bind_none,Option.none_or] using everywhere
  | some region =>
    have here : (districtIn forms row region).map (·.satoCode) = (region.districts.find? (matchesRow forms row)).map (·.satoCode) :=
      districtIn_code row region
    cases own : districtIn forms row region with
    | some entry =>
      rw [own] at here
      obtain ⟨district,found,same⟩ := Option.map_eq_some_iff.mp here.symm
      have any : region.districts.any (matchesRow forms row) = true :=
        List.any_eq_true.mpr ⟨district,List.mem_of_find?_eq_some found,List.find?_some found⟩
      simp only [districtSearch,scope,named,Option.bind_some,own,Option.some_or,any,↓reduceIte,found,Option.map_some,same]
    | none =>
      rw [own] at here
      have none : region.districts.any (matchesRow forms row) = false := by
        rw [List.any_eq_false]
        exact List.find?_eq_none.mp (Option.map_eq_none_iff.mp here.symm)
      simpa only [districtSearch,scope,named,Option.bind_some,own,Option.none_or,none,Bool.false_eq_true,↓reduceIte] using everywhere
theorem search_fresh (found : districtSearch forms row = some entry) : entry.satoName ≠ alreadyPresent := by
  have from_region {region : SatoRegion} (listed : region ∈ satoRegions) (inside : districtIn forms row region = some entry) :
      entry.satoName ≠ alreadyPresent := by
    obtain ⟨district,got,rfl⟩ := Option.map_eq_some_iff.mp inside
    exact names_marked district.name region.name
  rcases Option.or_eq_some_iff.mp found with own | ⟨-,other⟩
  · obtain ⟨region,named,inside⟩ := Option.bind_eq_some_iff.mp own
    exact from_region (namedRegion_listed named) inside
  · obtain ⟨region,listed,inside⟩ := List.exists_of_findSome?_eq_some other
    exact from_region listed inside
theorem FirstMatch.listed (first : FirstMatch forms row district) : district ∈ scope forms row :=
  List.mem_of_find?_eq_some (firstMatch_find.mp first)
theorem FirstMatch.matches (first : FirstMatch forms row district) : matchesRow forms row district = true := by
  obtain ⟨-,-,-,found,-⟩ := first
  exact found
theorem first_exists (inside : district ∈ scope forms row) (found : matchesRow forms row district = true) :
    ∃ first,FirstMatch forms row first := by
  obtain ⟨first,got⟩ := Option.isSome_iff_exists.mp (List.find?_isSome.mpr ⟨district,inside,found⟩)
  exact ⟨first,firstMatch_find.mpr got⟩
theorem search_first : (districtSearch forms row).map (·.satoCode) = some code ↔
    ∃ district,FirstMatch forms row district ∧ district.satoCode = code := by
  rw [search_code,Option.map_eq_some_iff]
  exact exists_congr fun district => and_congr_left fun _ => firstMatch_find.symm

-- Applying the matches, row by row.
def written (row : DbDistrict) (entry : Matched) : DbDistrict :=
  if entry.satoName ≠ alreadyPresent ∧ row.id = entry.dbId then {row with satoCode:=some entry.satoCode} else row
@[simp] theorem written_id (row : DbDistrict) (entry : Matched) : (written row entry).id = row.id := by
  unfold written
  split <;> rfl
theorem applyMatch_rows (rows : List DbDistrict) (entry : Matched) : applyMatch rows entry = rows.map (written · entry) := by
  unfold applyMatch written
  split
  · rename_i fresh
    simp only [fresh,true_and,not_false_eq_true,ne_eq]
  · rename_i present
    simp only [present,false_and,↓reduceIte,List.map_id']
theorem applied_rows (entries : List Matched) (rows : List DbDistrict) :
    entries.foldl applyMatch rows = rows.map fun row => entries.foldl written row := by
  induction entries generalizing rows with
  | nil => simp
  | cons entry rest ih => rw [List.foldl_cons,applyMatch_rows,ih,List.map_map]; rfl
theorem written_apart {entries : List Matched} (none : ∀ entry ∈ entries,entry.satoName ≠ alreadyPresent → entry.dbId ≠ row.id) :
    entries.foldl written row = row := by
  induction entries with
  | nil => rfl
  | cons entry rest ih =>
    have still : written row entry = row :=
      if_neg fun both => none entry List.mem_cons_self both.1 both.2.symm
    rw [List.foldl_cons,still]
    exact ih fun other member => none other (List.mem_cons_of_mem entry member)
theorem written_once {entries : List Matched} (distinct : (entries.map (·.dbId)).Nodup) (member : entry ∈ entries)
    (fresh : entry.satoName ≠ alreadyPresent) (own : entry.dbId = row.id) :
    entries.foldl written row = {row with satoCode:=some entry.satoCode} := by
  obtain ⟨before,after,rfl⟩ := List.append_of_mem member
  rw [List.map_append,List.map_cons] at distinct
  obtain ⟨-,right,apart⟩ := List.nodup_append.mp distinct
  have left : before.foldl written row = row := written_apart fun other there _ same =>
    apart _ (List.mem_map_of_mem there) _ List.mem_cons_self (same.trans own.symm)
  have here : written row entry = {row with satoCode:=some entry.satoCode} := if_pos ⟨fresh,own.symm⟩
  rw [List.foldl_append,List.foldl_cons,left,here]
  refine written_apart fun other there _ same => ?_
  exact (List.nodup_cons.mp right).1 (same.trans own.symm ▸ List.mem_map_of_mem there)

section Final
variable {rows : List DbDistrict} (keyed : (rows.map (·.id)).Nodup)

def finalCode (forms : TextForms) (rows : List DbDistrict) (row : DbDistrict) : Option String :=
  (carried row).or (if single (districtMatcher forms) forms rows row then (districtSearch forms row).map (·.satoCode) else none)

theorem matched_rows (rows : List DbDistrict) : (matchDistricts forms rows).matched =
    (rows.filter (single (districtMatcher forms) forms rows)).filterMap (districtMatcher forms).entryOf := by
  rw [matchDistricts,matchRows_exact]
theorem entryOf_carried (has : carried row = some code) :
    (districtMatcher forms).entryOf row = some ⟨row.id,row.name,code,alreadyPresent⟩ := by
  unfold Matcher.entryOf
  rw [show truthy ((districtMatcher forms).satoCode row) = some code from has]
  rfl
theorem entryOf_open (open_ : carried row = none) : (districtMatcher forms).entryOf row = districtSearch forms row := by
  unfold Matcher.entryOf
  rw [show truthy ((districtMatcher forms).satoCode row) = none from open_]
  rfl
theorem matched_sublist (rows : List DbDistrict) :
    ((matchDistricts forms rows).matched.map (·.satoCode)).Sublist (rows.filterMap (finalCode forms rows)) := by
  have codes : (matchDistricts forms rows).matched.map (·.satoCode) =
      (rows.filter (single (districtMatcher forms) forms rows)).filterMap (finalCode forms rows) := by
    rw [matched_rows,List.map_filterMap]
    refine List.filterMap_congr fun row inside => ?_
    rw [finalCode,if_pos (List.mem_filter.mp inside).2]
    cases has : carried row with
    | some code => rw [entryOf_carried has]; rfl
    | none => rw [entryOf_open has,Option.none_or]
  rw [codes]
  exact List.filter_sublist.filterMap _
include keyed
theorem matched_ids : ((matchDistricts forms rows).matched.map (·.dbId)).Nodup := by
  rw [matched_rows]
  refine (Logistics.filterMap_names _ (fun row entry got => (districtMatcher forms).entryOf_id got) _).nodup ?_
  exact (List.filter_sublist.map _).nodup keyed
theorem matched_entry (present : row ∈ rows) : entry ∈ (matchDistricts forms rows).matched ∧ entry.dbId = row.id ↔
    single (districtMatcher forms) forms rows row = true ∧ (districtMatcher forms).entryOf row = some entry := by
  rw [matched_rows,List.mem_filterMap]
  constructor
  · rintro ⟨⟨other,inside,got⟩,same⟩
    obtain ⟨there,alone⟩ := List.mem_filter.mp inside
    have ids : other.id = row.id := ((districtMatcher forms).entryOf_id got).symm.trans same
    obtain rfl := List.inj_on_of_nodup_map keyed there present ids
    exact ⟨alone,got⟩
  · rintro ⟨alone,got⟩
    exact ⟨⟨row,List.mem_filter.mpr ⟨present,alone⟩,got⟩,(districtMatcher forms).entryOf_id got⟩
-- A carried code stays; a row without one and without a namesake takes the code of its search.
theorem applied_code (present : row ∈ rows) :
    carried ((matchDistricts forms rows).matched.foldl written row) = finalCode forms rows row := by
  cases has : carried row with
  | some code =>
    rw [written_apart,has,finalCode,has,Option.some_or]
    intro entry listed fresh same
    obtain ⟨-,got⟩ := (matched_entry keyed present).mp ⟨listed,same⟩
    rw [entryOf_carried has] at got
    cases got
    exact fresh rfl
  | none =>
    rw [finalCode,has,Option.none_or]
    by_cases got : ∃ entry,single (districtMatcher forms) forms rows row = true ∧ districtSearch forms row = some entry
    · obtain ⟨entry,alone,found⟩ := got
      obtain ⟨listed,same⟩ := (matched_entry keyed present).mpr ⟨alone,(entryOf_open has).trans found⟩
      obtain ⟨district,first,code⟩ : ∃ district,FirstMatch forms row district ∧ district.satoCode = entry.satoCode :=
        search_first.mp (congrArg (Option.map (·.satoCode)) found)
      have filled : entry.satoCode ≠ "" := code ▸ codes_filled district (scope_listed first.listed)
      rw [written_once (matched_ids keyed) listed (search_fresh found) same,if_pos alone,found]
      simp [carried,truthy,Option.filter_some,filled]
    · rw [written_apart,has]
      · split
        · rename_i alone
          cases found : districtSearch forms row with
          | none => rfl
          | some entry => exact absurd ⟨entry,alone,found⟩ got
        · rfl
      · intro entry listed _ same
        obtain ⟨alone,found⟩ := (matched_entry keyed present).mp ⟨listed,same⟩
        exact got ⟨entry,alone,(entryOf_open has).symm.trans found⟩
theorem applied_codes : (applyDistrictSatoCodes forms rows).filterMap carried = rows.filterMap (finalCode forms rows) := by
  rw [applyDistrictSatoCodes,applied_rows,List.filterMap_map]
  exact List.filterMap_congr fun row present => applied_code keyed present
end Final

-- A row that is to be given a code: it has none and no other row has its name.
def Wanting (forms : TextForms) (rows : List DbDistrict) (row : DbDistrict) : Prop :=
  carried row = none ∧ ∀ other ∈ rows,other.id ≠ row.id →
    normalizeForDuplicateCheck forms other.name ≠ normalizeForDuplicateCheck forms row.name
-- Codes are unique, before and after they are applied, and an exact name wins.
structure WellAssigned (forms : TextForms) (rows : List DbDistrict) : Prop where
  matched : ((matchDistricts forms rows).matched.map (·.satoCode)).Nodup
  applied : ((applyDistrictSatoCodes forms rows).filterMap carried).Nodup
  exact : ∀ row ∈ rows,carried row = none → ∀ entry ∈ (matchDistricts forms rows).matched,entry.dbId = row.id →
    (∃ district ∈ scope forms row,Exact forms row district) →
      (∃ district ∈ scope forms row,Exact forms row district ∧ entry.satoCode = district.satoCode) ∧
      ∀ district ∈ scope forms row,entry.satoCode = district.satoCode → Exact forms row district
-- What the names must avoid for that.
structure Unambiguous (forms : TextForms) (rows : List DbDistrict) : Prop where
  free : ∀ row ∈ rows,Wanting forms rows row → ∀ district,FirstMatch forms row district →
    ∀ other ∈ rows,other.id ≠ row.id → carried other ≠ some district.satoCode
  unshared : ∀ row ∈ rows,Wanting forms rows row → ∀ district,FirstMatch forms row district → ¬Exact forms row district →
    ∀ other ∈ rows,Wanting forms rows other → other.id ≠ row.id → ¬FirstMatch forms other district
  late : ∀ row ∈ rows,Wanting forms rows row → ∀ before district after,scope forms row = before ++ district :: after →
    matchesRow forms row district = true → ¬Exact forms row district → (∃ other ∈ scope forms row,Exact forms row other) →
      ∃ earlier ∈ before,Exact forms row earlier

section Settled
variable {rows : List DbDistrict} (keyed : (rows.map (·.id)).Nodup)
include keyed

theorem wanting_exact (present : row ∈ rows) :
    Wanting forms rows row ↔ carried row = none ∧ single (districtMatcher forms) forms rows row = true := by
  rw [show single (districtMatcher forms) forms rows row = true ↔ _ from single_exact keyed present]
  rfl
theorem finalCode_exact (present : row ∈ rows) : finalCode forms rows row = some code ↔
    carried row = some code ∨ Wanting forms rows row ∧ ∃ district,FirstMatch forms row district ∧ district.satoCode = code := by
  rw [wanting_exact keyed present,←search_first,finalCode]
  cases has : carried row with
  | some own => simp
  | none => by_cases alone : single (districtMatcher forms) forms rows row = true <;> simp [alone]
theorem codes_apart (f : DbDistrict → Option String) : (rows.filterMap f).Nodup ↔
    ∀ row ∈ rows,∀ other ∈ rows,other.id ≠ row.id → ∀ code,f row = some code → f other ≠ some code := by
  have distinct : rows.Nodup := keyed.of_map
  rw [List.Nodup,List.pairwise_filterMap]
  constructor
  · intro apart row present other there ids code got same
    have both : Std.Symm fun a b => ∀ x,f a = some x → ∀ y,f b = some y → x ≠ y :=
      ⟨fun _ _ differ x got y got' => (differ y got' x got).symm⟩
    exact apart.forall present there (fun equal => ids (by rw [equal])) code got code same rfl
  · intro apart
    refine distinct.pairwise_of_forall_ne fun row present other there differ code got code' got' => ?_
    rintro rfl
    exact apart row present other there
      (fun same => differ (List.inj_on_of_nodup_map keyed present there same.symm)) code got got'

theorem codes_free (existing : (rows.filterMap carried).Nodup) : ((applyDistrictSatoCodes forms rows).filterMap carried).Nodup ↔
    (∀ row ∈ rows,Wanting forms rows row → ∀ district,FirstMatch forms row district →
      ∀ other ∈ rows,other.id ≠ row.id → carried other ≠ some district.satoCode) ∧
    ∀ row ∈ rows,Wanting forms rows row → ∀ district,FirstMatch forms row district → ¬Exact forms row district →
      ∀ other ∈ rows,Wanting forms rows other → other.id ≠ row.id → ¬FirstMatch forms other district := by
  rw [applied_codes keyed,codes_apart keyed]
  constructor
  · intro apart
    constructor
    · intro row present wanting district first other there ids same
      refine apart row present other there ids district.satoCode ?_ ((finalCode_exact keyed there).mpr (.inl same))
      exact (finalCode_exact keyed present).mpr (.inr ⟨wanting,district,first,rfl⟩)
    · intro row present wanting district first _ other there wants ids second
      refine apart row present other there ids district.satoCode ?_ ?_
      · exact (finalCode_exact keyed present).mpr (.inr ⟨wanting,district,first,rfl⟩)
      · exact (finalCode_exact keyed there).mpr (.inr ⟨wants,district,second,rfl⟩)
  · rintro ⟨free,unshared⟩ row present other there ids code got got'
    rcases (finalCode_exact keyed present).mp got with has | ⟨wanting,district,first,here⟩
    · rcases (finalCode_exact keyed there).mp got' with has' | ⟨wants,district,second,here⟩
      · exact (codes_apart keyed carried).mp existing row present other there ids code has has'
      · exact free other there wants district second row present ids.symm (has.trans (congrArg some here.symm))
    · rcases (finalCode_exact keyed there).mp got' with has' | ⟨wants,other_,second,here'⟩
      · exact free row present wanting district first other there ids (has'.trans (congrArg some here.symm))
      · obtain rfl : district = other_ := code_determines (scope_listed first.listed) (scope_listed second.listed) (here.trans here'.symm)
        by_cases exact : Exact forms row district
        · -- Two exact names are one name, and the rows would be each other's duplicates.
          by_cases exact' : Exact forms other district
          · exact wanting.2 other there ids (by rw [normalizeForDuplicateCheck,normalizeForDuplicateCheck,exact,exact'])
          · exact unshared other there wants district second exact' row present wanting ids.symm first
        · exact unshared row present wanting district first exact other there wants ids second

-- The entry of a row without a code is the first match of its scope.
theorem entry_first (present : row ∈ rows) (open_ : carried row = none) (listed : entry ∈ (matchDistricts forms rows).matched)
    (own : entry.dbId = row.id) : Wanting forms rows row ∧ ∃ district,FirstMatch forms row district ∧ district.satoCode = entry.satoCode := by
  obtain ⟨alone,got⟩ := (matched_entry keyed present).mp ⟨listed,own⟩
  rw [entryOf_open open_] at got
  exact ⟨(wanting_exact keyed present).mpr ⟨open_,alone⟩,search_first.mp (congrArg (Option.map (·.satoCode)) got)⟩
theorem first_entry (present : row ∈ rows) (wanting : Wanting forms rows row) (first : FirstMatch forms row district) :
    ∃ entry ∈ (matchDistricts forms rows).matched,entry.dbId = row.id ∧ entry.satoCode = district.satoCode := by
  obtain ⟨entry,got,code⟩ := Option.map_eq_some_iff.mp (search_first.mpr ⟨district,first,rfl⟩)
  obtain ⟨open_,alone⟩ := (wanting_exact keyed present).mp wanting
  obtain ⟨listed,own⟩ := (matched_entry keyed present).mpr ⟨alone,(entryOf_open open_).trans got⟩
  exact ⟨entry,listed,own,code⟩

theorem exact_wins : (∀ row ∈ rows,carried row = none → ∀ entry ∈ (matchDistricts forms rows).matched,entry.dbId = row.id →
      (∃ district ∈ scope forms row,Exact forms row district) →
        (∃ district ∈ scope forms row,Exact forms row district ∧ entry.satoCode = district.satoCode) ∧
        ∀ district ∈ scope forms row,entry.satoCode = district.satoCode → Exact forms row district) ↔
    ∀ row ∈ rows,Wanting forms rows row → ∀ before district after,scope forms row = before ++ district :: after →
      matchesRow forms row district = true → ¬Exact forms row district → (∃ other ∈ scope forms row,Exact forms row other) →
        ∃ earlier ∈ before,Exact forms row earlier := by
  constructor
  · intro wins row present wanting before district after parts found other named
    by_contra none
    -- The first match then stands no later than the inexact one, and is inexact too.
    obtain ⟨first,isFirst⟩ := first_exists (parts ▸ by simp) found
    have notExact : ¬Exact forms row first := by
      intro exact
      have got := firstMatch_find.mp isFirst
      rw [parts,List.find?_append,List.find?_cons_of_pos found] at got
      cases early : before.find? (matchesRow forms row) with
      | some x =>
        rw [early] at got
        cases got
        exact none ⟨first,List.mem_of_find?_eq_some early,exact⟩
      | none =>
        rw [early] at got
        cases got
        exact other exact
    obtain ⟨entry,listed,own,code⟩ := first_entry keyed present wanting isFirst
    exact notExact ((wins row present wanting.1 entry listed own named).2 first isFirst.listed code)
  · intro late row present open_ entry listed own named
    obtain ⟨wanting,first,isFirst,code⟩ := entry_first keyed present open_ listed own
    have exact : Exact forms row first := by
      by_contra other
      obtain ⟨before,after,parts,found,none⟩ := isFirst
      obtain ⟨earlier,there,same⟩ := late row present wanting before first after parts found other named
      exact absurd same.matches (by simp [none earlier there])
    refine ⟨⟨first,isFirst.listed,exact,code.symm⟩,fun district inside same => ?_⟩
    obtain rfl := code_determines (scope_listed isFirst.listed) (scope_listed inside) (code.trans same)
    exact exact
end Settled

-- The codes of a whole table are right exactly when its names are unambiguous.
theorem sato_assignment (forms : TextForms) {dbDistricts : List DbDistrict} (keyed : (dbDistricts.map (·.id)).Nodup)
    (existing : (dbDistricts.filterMap carried).Nodup) : WellAssigned forms dbDistricts ↔ Unambiguous forms dbDistricts := by
  constructor
  · rintro ⟨-,applied,exact⟩
    obtain ⟨free,unshared⟩ := (codes_free keyed existing).mp applied
    exact ⟨free,unshared,(exact_wins keyed).mp exact⟩
  · rintro ⟨free,unshared,late⟩
    have applied := (codes_free keyed existing).mpr ⟨free,unshared⟩
    exact ⟨(matched_sublist dbDistricts).nodup (applied_codes keyed ▸ applied),applied,(exact_wins keyed).mpr late⟩
theorem sato_assignment_two : let rows : List DbDistrict :=
      [⟨"1","Asaka tumani",none,some ⟨"r","Andijon viloyati"⟩⟩,⟨"2","Olot tumani",some "1706204",some ⟨"s","Buxoro viloyati"⟩⟩]
    WellAssigned plainForms rows ↔ Unambiguous plainForms rows :=
  sato_assignment plainForms (by decide) (by decide)
-- Outside a known region Bo'stonliq meets Bo'ston of Andijon long before its own entry, and takes the code of another row.
def boston : DbDistrict := ⟨"1","Bo'ston tumani",some "1703209",some ⟨"a","Andijon viloyati"⟩⟩
def bostonliq : DbDistrict := ⟨"2","Bo'stonliq tumani",none,some ⟨"t","Toshkent"⟩⟩
def regionNames : List String := ["Andijon viloyati","Buxoro viloyati","Jizzax viloyati","Qashqadaryo viloyati","Navoiy viloyati",
  "Namangan viloyati","Samarqand viloyati","Surxondaryo viloyati","Sirdaryo viloyati","Toshkent shahri","Toshkent viloyati","Farg'ona viloyati","Xorazm viloyati","Qoraqalpog'iston Respublikasi"]
theorem satoRegions_names : satoRegions.map (·.name) = regionNames := rfl
-- One evaluation a name.
theorem regionNames_apart : ∀ name ∈ regionNames,namesMatch plainForms name "Toshkent" = false := by
  simp only [regionNames,List.forall_mem_cons]
  repeat refine ⟨by decide +kernel,?_⟩
  nofun
theorem bostonliq_region : namedRegion plainForms bostonliq = none := by
  have name : bostonliq.regionName = some "Toshkent" := by decide
  rw [namedRegion,name,Option.bind_some,List.find?_eq_none]
  intro region listed
  simp [regionNames_apart region.name (satoRegions_names ▸ List.mem_map_of_mem listed)]
theorem filterMap_pair {α β : Type} {f : α → Option β} {a b : α} {x y : β} (first : f a = some x) (second : f b = some y) :
    [a,b].filterMap f = [x,y] := by
  simp [first,second]
theorem boston_matched : (matchDistricts plainForms [boston,bostonliq]).matched.map (·.satoCode) = ["1703209","1703209"] := by
  have alone : [boston,bostonliq].filter (single (districtMatcher plainForms) plainForms [boston,bostonliq]) =
      [boston,bostonliq] := by decide +kernel
  have taken : (districtSearch plainForms bostonliq).map (·.satoCode) = some "1703209" := by
    rw [districtSearch_unnamed bostonliq_region]
    decide +kernel
  have first : (districtMatcher plainForms).codeOf boston = some "1703209" := rfl
  have second : (districtMatcher plainForms).codeOf bostonliq = some "1703209" := by
    rw [Matcher.codeOf,entryOf_open (by decide)]
    exact taken
  rw [matched_rows,alone,List.map_filterMap]
  exact filterMap_pair (f := (districtMatcher plainForms).codeOf) first second
theorem sato_assignment_clash : ([boston,bostonliq].map (·.id)).Nodup ∧ ([boston,bostonliq].filterMap carried).Nodup ∧
    ¬WellAssigned plainForms [boston,bostonliq] ∧
      (matchDistricts plainForms [boston,bostonliq]).matched.map (·.satoCode) = ["1703209","1703209"] ∧
      ∃ district ∈ scope plainForms bostonliq,Exact plainForms bostonliq district ∧ district.satoCode = "1727224" := by
  refine ⟨by decide,by decide,fun well => ?_,boston_matched,⟨"Bo'stonliq tumani","1727224"⟩,?_,rfl,rfl⟩
  · exact absurd (boston_matched ▸ well.matched) (by decide)
  · rw [scope_unnamed bostonliq_region]
    decide +kernel

end Elchi.Sato

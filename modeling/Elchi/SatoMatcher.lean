import Mathlib.Data.List.Infix
import Mathlib.Data.List.Nodup
import Mathlib.Data.List.Perm.Basic
import Elchi.Posts
import Elchi.SatoCodes
namespace Elchi.Sato
open Elchi.Logistics (groupBy groupBy_parts groupBy_keys groupBy_apart groupBy_covers)

-- Lower case and NFKC are the tables of Unicode.
structure TextForms where
  toLowerCase : String → String
  normalize : String → String
-- What they do on ASCII text.
def plainForms : TextForms := ⟨fun s => String.ofList (s.toList.map Char.toLower),id⟩

def includes (text part : String) : Bool := decide (part.toList <:+: text.toList)
def truthy (text : Option String) : Option String := text.filter (· ≠ "")
def zeroWidth (c : Char) : Bool := c.toNat ∈ [0x200B,0x200C,0x200D,0xFEFF]
def cleanName (forms : TextForms) (s : String) : String :=
  String.ofList (((forms.normalize (jsTrim (forms.toLowerCase s))).toList.filter fun c => !zeroWidth c).map
    fun c => if c = '`' then '\'' else c)

-- Every run of white space becomes one blank; the flag tells that a run is open.
def collapseSpaces : Bool → List Char → List Char
  | _,[] => []
  | inside,c :: rest =>
    if jsSpace c then if inside then collapseSpaces true rest else ' ' :: collapseSpaces true rest
    else c :: collapseSpaces false rest
def normalizeForDuplicateCheck (forms : TextForms) (name : String) : String :=
  String.ofList (collapseSpaces false (cleanName forms name).toList)

-- The length of a match of /\s*(viloyati|tumani|respublikasi)\s*/i at the head of the text.
def suffixLength (chars : List Char) : Option Nat :=
  let spaces := (chars.takeWhile jsSpace).length
  let rest := chars.drop spaces
  (["viloyati","tumani","respublikasi"].find? fun word => word.toList.isPrefixOf (rest.map Char.toLower)).map fun word =>
    spaces + word.length + ((rest.drop word.length).takeWhile jsSpace).length
-- Every match becomes one blank; the number counts the characters of a match still to be passed over.
def dropSuffixes : Nat → List Char → List Char
  | _,[] => []
  | passed + 1,_ :: rest => dropSuffixes passed rest
  | 0,c :: rest =>
    match suffixLength (c :: rest) with
    | some length => ' ' :: dropSuffixes (length - 1) rest
    | none => c :: dropSuffixes 0 rest
def normalizeName (forms : TextForms) (name : String) (keepSuffix : Bool) : String :=
  let normalized := cleanName forms name
  if keepSuffix then normalized
  else jsTrim (String.ofList (collapseSpaces false (dropSuffixes 0 normalized.toList)))

def specialMatches : List (String × List String) := [
  ("andijon",["andijon viloyati","andijon v"]),("farg'ona",["fargona","fergana"]),("namangan",["namangan viloyati"]),
  ("samarqand",["samarkand"]),("buxoro",["bukhara","buxara"]),("navoiy",["navoi"]),("xorazm",["khorezm","xorezm"]),
  ("surxondaryo",["surkhandarya"]),("qashqadaryo",["kashkadarya"]),("jizzax",["jizzakh","djizak"]),("sirdaryo",["syrdarya"]),
  ("qoraqalpog'iston",["karakalpakstan","qoraqalpogiston"]),("khiva",["xiva"]),("khojaobod",["xo'jaobod"])]

def namesMatch (forms : TextForms) (name1 name2 : String) : Bool :=
  let n1Lower := cleanName forms name1
  let n2Lower := cleanName forms name2
  let hasShahri1 := includes n1Lower "shahri" || includes n1Lower "shahar"
  let hasShahri2 := includes n2Lower "shahri" || includes n2Lower "shahar"
  let hasTumani1 := includes n1Lower "tumani" || includes n1Lower "tuman"
  let hasTumani2 := includes n2Lower "tumani" || includes n2Lower "tuman"
  let isToshkentShahri1 := includes n1Lower "toshkent" && hasShahri1
  let isToshkentShahri2 := includes n2Lower "toshkent" && hasShahri2
  let isToshkentViloyati1 := includes n1Lower "toshkent" && (includes n1Lower "viloyati" || includes n1Lower "viloyat")
  let isToshkentViloyati2 := includes n2Lower "toshkent" && (includes n2Lower "viloyati" || includes n2Lower "viloyat")
  let n1 := normalizeName forms name1 false
  let n2 := normalizeName forms name2 false
  if n1Lower = n2Lower then true
  else if (hasShahri1 && hasTumani2) || (hasTumani1 && hasShahri2) then false
  else if hasShahri1 != hasShahri2 then false
  else if hasTumani1 != hasTumani2 then false
  else if (isToshkentShahri1 && isToshkentViloyati2) || (isToshkentViloyati1 && isToshkentShahri2) then false
  else if isToshkentShahri1 || isToshkentShahri2 then isToshkentShahri1 && isToshkentShahri2
  else if isToshkentViloyati1 || isToshkentViloyati2 then isToshkentViloyati1 && isToshkentViloyati2
  else if n1 = n2 then true
  else if includes n1 n2 || includes n2 n1 then true
  else specialMatches.any fun (key,variants) =>
    (includes n1 key || variants.any (includes n1)) && (includes n2 key || variants.any (includes n2))
-- Equal cleaned names match whatever the later checks say.
theorem namesMatch_same (same : cleanName forms name1 = cleanName forms name2) : namesMatch forms name1 name2 = true := by
  simp only [namesMatch,same,↓reduceIte]

structure Matched where
  dbId : String
  dbName : String
  satoCode : String
  satoName : String
deriving DecidableEq, Repr
structure Unmatched where
  dbId : String
  dbName : String
  regionName : Option String
deriving DecidableEq, Repr
structure DuplicateEntry where
  id : String
  regionName : Option String
deriving DecidableEq, Repr
structure Duplicate where
  name : String
  entries : List DuplicateEntry
deriving DecidableEq, Repr
structure MissingSato where
  satoCode : String
  satoName : String
  regionName : Option String
deriving DecidableEq, Repr
structure MatchStats where
  totalDb : Nat
  totalSato : Nat
  matchedCount : Nat
  unmatchedCount : Nat
  duplicatesCount : Nat
  missingCount : Nat
deriving DecidableEq, Repr
structure MatchResult where
  matched : List Matched
  unmatched : List Unmatched
  duplicates : List Duplicate
  missingSatoEntries : List MissingSato
  stats : MatchStats
deriving DecidableEq, Repr

def MatchResult.addMatched (result : MatchResult) (entry : Matched) : MatchResult :=
  {result with matched:=result.matched ++ [entry],stats:={result.stats with matchedCount:=result.stats.matchedCount + 1}}
def MatchResult.addUnmatched (result : MatchResult) (entry : Unmatched) : MatchResult :=
  {result with unmatched:=result.unmatched ++ [entry],stats:={result.stats with unmatchedCount:=result.stats.unmatchedCount + 1}}
def MatchResult.addDuplicate (result : MatchResult) (entry : Duplicate) (count : Nat) : MatchResult :=
  {result with
    duplicates:=result.duplicates ++ [entry]
    stats:={result.stats with duplicatesCount:=result.stats.duplicatesCount + count}}
def MatchResult.addMissing (result : MatchResult) (entry : MissingSato) : MatchResult :=
  {result with
    missingSatoEntries:=result.missingSatoEntries ++ [entry]
    stats:={result.stats with missingCount:=result.stats.missingCount + 1}}

-- What matchRegions and matchDistricts differ in: the row they read, the texts they write and the search for an entry.
structure Matcher (ρ : Type) where
  id : ρ → String
  name : ρ → String
  satoCode : ρ → Option String
  search : ρ → Option Matched
  leftover : ρ → Unmatched
  describe : List ρ → Duplicate
  totalSato : Nat
  entries : List MissingSato
  search_id : ∀ row entry,search row = some entry → entry.dbId = id row
  leftover_id : ∀ row,(leftover row).dbId = id row
  describe_ids : ∀ rows,(describe rows).entries.map (·.id) = rows.map id

def alreadyPresent : String := "(allaqachon mavjud)"
def Matcher.entryOf (matcher : Matcher ρ) (row : ρ) : Option Matched :=
  match truthy (matcher.satoCode row) with
  | some code => some ⟨matcher.id row,matcher.name row,code,alreadyPresent⟩
  | none => matcher.search row
def Matcher.codeOf (matcher : Matcher ρ) (row : ρ) : Option String := (matcher.entryOf row).map (·.satoCode)
theorem Matcher.entryOf_id (matcher : Matcher ρ) (got : matcher.entryOf row = some entry) : entry.dbId = matcher.id row := by
  unfold Matcher.entryOf at got
  split at got
  · cases got
    rfl
  · exact matcher.search_id row entry got

def noteDuplicates (matcher : Matcher ρ) (state : MatchResult × List String) (group : String × List ρ) : MatchResult × List String :=
  if group.2.length > 1 then
    (state.1.addDuplicate (matcher.describe group.2) group.2.length,state.2 ++ group.2.map matcher.id)
  else state
-- A duplicate row marks its code as used and is in neither list.
def matchRow (matcher : Matcher ρ) (duplicateIds : List String) (state : MatchResult × List String) (row : ρ) :
    MatchResult × List String :=
  let isDuplicate := duplicateIds.contains (matcher.id row)
  match matcher.entryOf row with
  | some entry => (if isDuplicate then state.1 else state.1.addMatched entry,state.2 ++ [entry.satoCode])
  | none => (if isDuplicate then state.1 else state.1.addUnmatched (matcher.leftover row),state.2)
def noteMissing (usedSatoCodes : List String) (result : MatchResult) (entry : MissingSato) : MatchResult :=
  if usedSatoCodes.contains entry.satoCode then result else result.addMissing entry

def matchRows (forms : TextForms) (matcher : Matcher ρ) (rows : List ρ) : MatchResult :=
  let groups := groupBy (fun row => normalizeForDuplicateCheck forms (matcher.name row)) rows
  let noted := groups.foldl (noteDuplicates matcher) (⟨[],[],[],[],⟨rows.length,matcher.totalSato,0,0,0,0⟩⟩,[])
  let matched := rows.foldl (matchRow matcher noted.2) (noted.1,[])
  matcher.entries.foldl (noteMissing matched.2) matched.1

structure DbRegion where
  id : String
  name : String
  satoCode : Option String
deriving DecidableEq, Repr
structure RegionOf where
  id : String
  name : String
deriving DecidableEq, Repr
structure DbDistrict where
  id : String
  name : String
  satoCode : Option String
  region : Option RegionOf
deriving DecidableEq, Repr

def regionMatcher (forms : TextForms) : Matcher DbRegion where
  id := (·.id)
  name := (·.name)
  satoCode := (·.satoCode)
  search row := (satoRegions.find? fun region => namesMatch forms row.name region.name).map fun region =>
    ⟨row.id,row.name,region.satoCode,region.name⟩
  leftover row := ⟨row.id,row.name,none⟩
  describe rows := ⟨(rows.head?.map (·.name)).getD "",rows.map fun row => ⟨row.id,none⟩⟩
  totalSato := satoRegions.length
  entries := satoRegions.map fun region => ⟨region.satoCode,region.name,none⟩
  search_id := by
    rintro row entry got
    obtain ⟨region,-,rfl⟩ := Option.map_eq_some_iff.mp got
    rfl
  leftover_id _ := rfl
  describe_ids rows := by simp
def matchRegions (forms : TextForms) (dbRegions : List DbRegion) : MatchResult := matchRows forms (regionMatcher forms) dbRegions

def DbDistrict.regionName (row : DbDistrict) : Option String := truthy (row.region.map (·.name))
def DbDistrict.regionText (row : DbDistrict) : String := row.regionName.getD "Noma'lum"
def districtEntry (row : DbDistrict) (region : SatoRegion) (district : SatoDistrict) : Matched :=
  ⟨row.id,row.name ++ " (" ++ row.regionText ++ ")",district.satoCode,district.name ++ " (" ++ region.name ++ ")"⟩
-- The first of the region's districts whose name matches the row's.
def districtIn (forms : TextForms) (row : DbDistrict) (region : SatoRegion) : Option Matched :=
  (region.districts.find? fun district => namesMatch forms row.name district.name).map (districtEntry row region)
def namedRegion (forms : TextForms) (row : DbDistrict) : Option SatoRegion :=
  row.regionName.bind fun name => satoRegions.find? fun region => namesMatch forms region.name name
-- The region of the row's own name comes first; without a match there, every region in turn.
def districtSearch (forms : TextForms) (row : DbDistrict) : Option Matched :=
  ((namedRegion forms row).bind (districtIn forms row)).or (satoRegions.findSome? (districtIn forms row))
theorem districtIn_id (got : districtIn forms row region = some entry) : entry.dbId = row.id := by
  obtain ⟨district,-,rfl⟩ := Option.map_eq_some_iff.mp got
  rfl

def districtMatcher (forms : TextForms) : Matcher DbDistrict where
  id := (·.id)
  name := (·.name)
  satoCode := (·.satoCode)
  search := districtSearch forms
  leftover row := ⟨row.id,row.name,row.region.map (·.name)⟩
  describe rows :=
    ⟨(rows.head?.map (·.name)).getD "" ++ " (" ++ ", ".intercalate ((rows.map (·.regionText)).eraseDups) ++ ")",
      rows.map fun row => ⟨row.id,some row.regionText⟩⟩
  totalSato := (satoRegions.map (·.districts.length)).sum
  entries := satoRegions.flatMap fun region => region.districts.map fun district => ⟨district.satoCode,district.name,some region.name⟩
  search_id := by
    rintro row entry got
    rcases Option.or_eq_some_iff.mp got with own | ⟨-,other⟩
    · obtain ⟨region,-,found⟩ := Option.bind_eq_some_iff.mp own
      exact districtIn_id found
    · obtain ⟨region,-,found⟩ := List.exists_of_findSome?_eq_some other
      exact districtIn_id found
  leftover_id _ := rfl
  describe_ids rows := by simp
def matchDistricts (forms : TextForms) (dbDistricts : List DbDistrict) : MatchResult :=
  matchRows forms (districtMatcher forms) dbDistricts

end Elchi.Sato

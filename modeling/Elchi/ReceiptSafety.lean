import Mathlib.Data.List.Forall2
import Elchi.ReceiptPages
namespace Elchi.Printing
open Html

-- The texts that are shown as they were given.
def safePhone (phone : Option String) : Prop := ∀ number,phone = some number → isUzbekNumber number = true ∨ harmless number.toList = true
structure Safe (row : PrintRow) : Prop where
  orderNumber : ∀ number,row.orderNumber = some number → harmless number.toList = true
  customerPhone : safePhone row.customerPhone
  extraNumber : safePhone row.extraNumber
  marketPhone : safePhone row.marketPhone
-- The same row with other texts: what decides over an element of the receipt is there in both or in neither.
structure SameShape (row other : PrintRow) : Prop where
  qrCodeToken : row.qrCodeToken = other.qrCodeToken
  orderNumber : (given row.orderNumber).isSome = (given other.orderNumber).isSome
  extraNumber : (given row.extraNumber).isSome = (given other.extraNumber).isSome
  marketPhone : (given row.marketPhone).isSome = (given other.marketPhone).isSome

section Texts

theorem replaceAll_absent {c d : Char} {entity : String} {text : List Char} (apart : c ∉ entity.toList) (absent : c ∉ text) :
    c ∉ replaceAll d entity text := by
  intro member
  obtain ⟨e,here,found⟩ := List.mem_flatMap.mp member
  split at found
  · exact apart found
  · exact absent ((List.mem_singleton.mp found) ▸ here)
theorem replaceAll_gone {c : Char} {entity : String} (apart : c ∉ entity.toList) (text : List Char) : c ∉ replaceAll c entity text := by
  intro member
  obtain ⟨e,here,found⟩ := List.mem_flatMap.mp member
  split at found
  · exact apart found
  · rename_i other
    exact other (List.mem_singleton.mp found).symm
theorem escapeHtml_plain (text : String) : '<' ∉ (escapeHtml text).toList := by
  rw [escapeHtml,String.toList_ofList]
  exact replaceAll_absent (by decide) (replaceAll_absent (by decide) (replaceAll_gone (by decide) _))
theorem orDash_plain {text : String} (plain : '<' ∉ text.toList) : '<' ∉ (orDash text).toList := by
  unfold orDash
  split
  · decide
  · exact plain

theorem digits_plain {phone : List Char} {kept : List Char} (part : ∀ c ∈ kept,c ∈ phone.filter Char.isDigit) : '<' ∉ kept := by
  intro member
  exact absurd (List.mem_filter.mp (part _ member)).2 (by decide)
theorem formatPhoneNumber_harmless (phone : String) :
    harmless (formatPhoneNumber phone).toList = true ↔ isUzbekNumber phone = true ∨ harmless phone.toList = true := by
  have digits : ∀ start count,'<' ∉ ((phone.toList.filter Char.isDigit).drop start).take count :=
    fun start count => digits_plain fun c member => List.mem_of_mem_drop (List.mem_of_mem_take member)
  unfold formatPhoneNumber
  dsimp only
  split
  · rename_i uzbek
    refine iff_of_true (harmless_plain ?_) (.inl uzbek)
    simp [String.toList_append,digits]
  · rename_i other
    simp [other]
theorem formatPhoneNumber_other {phone : String} (other : isUzbekNumber phone = false) : formatPhoneNumber phone = phone := by
  simp [formatPhoneNumber,other]
theorem formatPhoneNumber_empty (phone : String) : formatPhoneNumber phone = "" ↔ phone = "" := by
  unfold formatPhoneNumber
  dsimp only
  split
  · rename_i uzbek
    constructor
    · intro empty
      have first := congrArg (fun text : String => text.toList.head?) empty
      simp at first
    · rintro rfl
      cases uzbek
  · rfl

theorem given_harmless {text : Option String} {number : String} (here : given text = some number) : text = some number :=
  (Option.filter_eq_some_iff.mp here).1
theorem given_none {text : Option String} (none : given text = none) : ∀ number,text = some number → number = "" := by
  rintro number rfl
  simpa [given] using none
theorem formatGiven_none {phone : Option String} (none : given phone = none) : formatGiven phone = "" := by rw [formatGiven,none]
theorem formatGiven_some {phone : Option String} {number : String} (here : given phone = some number) :
    formatGiven phone = formatPhoneNumber number ∧ formatGiven phone ≠ "" := by
  rw [formatGiven,here]
  refine ⟨rfl,?_⟩
  rw [Ne,formatPhoneNumber_empty]
  simpa using (Option.filter_eq_some_iff.mp here).2

end Texts

section Framing
set_option maxRecDepth 10000

-- A literal is the list of its characters, which is what gets evaluated.
theorem framed_piece {text : List Char} {rest : List Part} (complete : closed text = true) (later : framed rest = true) :
    framed (piece (String.ofList text) :: rest) = true := by
  rw [piece,String.toList_ofList,framed,complete,later]
  rfl
theorem begins_piece {text : List Char} (rest : List Part) (front : fronted text = true) :
    begins (piece (String.ofList text) :: rest) = true := by
  rw [piece,String.toList_ofList]
  exact front
theorem framed_shown {field : String} {text : List Char} {rest : List Part} (tag : (fronted text && closed text) = true)
    (later : framed rest = true) : framed (shown field :: piece (String.ofList text) :: rest) = true := by
  obtain ⟨front,complete⟩ := Bool.and_eq_true_iff.mp tag
  rw [shown,framed,begins_piece rest front,framed_piece complete later]
  rfl
theorem absent_text {c : Char} {text : List Char} (absent : c ∉ text) : c ∉ (String.ofList text).toList := by
  rwa [String.toList_ofList]

def qrTag : Tag := {closing:=false,name:="img".toList,attributes:=[("class".toList,"qr".toList)]}
theorem image_closed (url : AttributeText) : closed ("<img class=\"qr\" src=\"" ++ url.text ++ "\"/>").toList = true := by
  have opened : (walk .data "<img class=\"qr\" src=\"".toList).2 = .quotedValue qrTag "crs".toList '"' [] := by decide
  rw [closed,beq_iff_eq,String.toList_append,String.toList_append,walk_state,walk_state,opened,walk_quoted url.inside]
  rfl
theorem path_closed {d fill : String} (inside : '"' ∉ d.toList) (filled : '"' ∉ fill.toList) :
    closed ("<path d=\"" ++ d ++ "\" fill=\"" ++ fill ++ "\"/>").toList = true := by
  have opened : (walk .data "<path d=\"".toList).2 = .quotedValue {closing:=false,name:="path".toList} ['d'] '"' [] := by decide
  have between : ∀ value,(walk (.quotedValue {closing:=false,name:="path".toList} ['d'] '"' value) "\" fill=\"".toList).2 =
      .quotedValue {closing:=false,name:="path".toList,attributes:=[(['d'],value.reverse)]} "llif".toList '"' [] := fun _ => rfl
  rw [closed,beq_iff_eq,String.toList_append,String.toList_append,String.toList_append,String.toList_append,walk_state,walk_state,
    walk_state,walk_state,opened,walk_quoted inside,between,walk_quoted filled]
  rfl

theorem qrImage_framed (library : PrintLibrary) (row : PrintRow) : framed (qrImage library row) = true := by
  unfold qrImage
  split
  · rename_i url _
    split
    · rfl
    · rw [piece,framed,image_closed url]
      rfl
  · rfl
theorem logo_framed : framed beepostSvg = true := by
  have drawn : ∀ path ∈ logoPaths,'"' ∉ path.1.toList ∧ '"' ∉ path.2.toList := by
    simp only [logoPaths,List.forall_mem_cons]
    exact ⟨⟨absent_text (by decide),by decide⟩,⟨absent_text (by decide),by decide⟩,
      ⟨absent_text (by decide),by decide⟩,⟨absent_text (by decide),by decide⟩,nofun⟩
  have each : ∀ paths : List (String × String),(∀ path ∈ paths,'"' ∉ path.1.toList ∧ '"' ∉ path.2.toList) →
      framed (paths.map (fun path => piece ("<path d=\"" ++ path.1 ++ "\" fill=\"" ++ path.2 ++ "\"/>")) ++ [piece "</svg>"]) = true := by
    intro paths inside
    induction paths with
    | nil => exact framed_piece (by decide) rfl
    | cons path rest ih =>
      obtain ⟨d,fill⟩ := inside path List.mem_cons_self
      rw [List.map_cons,List.cons_append,piece,framed,path_closed d fill,ih fun other member => inside other (List.mem_cons_of_mem _ member)]
      rfl
  rw [beepostSvg,List.append_assoc,List.cons_append,List.nil_append]
  exact framed_piece (by decide) (each logoPaths drawn)

theorem orderNumber_framed (row : PrintRow) : framed (orderNumberPart row) = true := by
  unfold orderNumberPart
  split
  · exact framed_piece (by decide) (framed_shown (by decide) rfl)
  · rfl
theorem brandRow_framed (row : PrintRow) : framed (brandRow row) = true := by
  refine framed_append (framed_append (framed_append (framed_append ?_ logo_framed) ?_) (orderNumber_framed row)) ?_
  · exact framed_piece (by decide) rfl
  · exact framed_piece (by decide) rfl
  · exact framed_piece (by decide) rfl

theorem phoneDisplay_framed (row : PrintRow) {rest : List Part} (front : begins rest = true) (later : framed rest = true) :
    framed (phoneDisplay row ++ rest) = true := by
  unfold phoneDisplay
  dsimp only
  split
  · rw [List.append_nil,List.cons_append,List.nil_append,shown,framed,front,later]
    rfl
  · refine framed_shown (by decide) ?_
    exact framed_shown (by decide) later
theorem contact_framed (row : PrintRow) {rest : List Part} (front : begins rest = true) (later : framed rest = true) :
    framed (contactPhonesHtml row ++ rest) = true := by
  unfold contactPhonesHtml
  dsimp only
  split
  · rw [List.cons_append,List.nil_append,shown,framed,front,later]
    rfl
  · refine framed_piece (by decide) ?_
    exact framed_shown (by decide) later
theorem panels_framed (library : PrintLibrary) (row : PrintRow) : framed (panels library row) = true := by
  unfold panels
  rw [List.append_assoc,List.append_assoc,List.append_assoc]
  refine framed_piece (by decide) ?_
  refine framed_shown (by decide) ?_
  refine framed_shown (by decide) ?_
  refine phoneDisplay_framed row (begins_piece _ (by decide)) ?_
  refine framed_piece (by decide) ?_
  refine framed_shown (by decide) ?_
  refine framed_shown (by decide) ?_
  refine framed_shown (by decide) ?_
  refine framed_shown (by decide) ?_
  refine framed_shown (by decide) ?_
  refine framed_shown (by decide) ?_
  refine framed_shown (by decide) ?_
  refine framed_shown (by decide) ?_
  exact contact_framed row (begins_piece _ (by decide)) (framed_piece (by decide) rfl)
theorem receipt_framed (library : PrintLibrary) (row : PrintRow) : framed (receipt library row) = true :=
  framed_append (framed_append (brandRow_framed row) (qrImage_framed library row)) (panels_framed library row)

theorem joinLines_cons (line next : List Part) (others : List (List Part)) :
    joinLines (line :: next :: others) = line ++ piece "\n" :: joinLines (next :: others) := rfl
theorem joinLines_framed {lines : List (List Part)} (each : ∀ line ∈ lines,framed line = true) : framed (joinLines lines) = true := by
  induction lines with
  | nil => rfl
  | cons line rest ih =>
    have first := each line List.mem_cons_self
    cases rest with
    | nil => exact first
    | cons next others =>
      exact framed_append first (framed_piece (by decide) (ih fun other member => each other (List.mem_cons_of_mem _ member)))

theorem cell_framed {receipts : List (List Part)} (each : ∀ one ∈ receipts,framed one = true) (place : Nat) :
    framed ((receipts[place]?).getD emptyCell) = true := by
  cases here : receipts[place]? with
  | none => exact framed_piece (by decide) rfl
  | some one => exact each one (List.mem_of_getElem? here)
theorem gridRow_framed {receipts : List (List Part)} (each : ∀ one ∈ receipts,framed one = true) (r : Nat) :
    framed (gridRow receipts r) = true :=
  framed_append (framed_append (framed_append (framed_piece (by decide) rfl) (cell_framed each _)) (cell_framed each _))
    (framed_piece (by decide) rfl)
theorem sheet_framed {receipts : List (List Part)} (each : ∀ one ∈ receipts,framed one = true) : framed (sheet receipts) = true := by
  refine framed_append (framed_append (framed_piece (by decide) rfl) (joinLines_framed ?_)) (framed_piece (by decide) rfl)
  intro line member
  obtain ⟨r,-,rfl⟩ := List.mem_map.mp member
  exact gridRow_framed each r
theorem sheets_framed {receipts : List (List Part)} (each : ∀ one ∈ receipts,framed one = true) : framed (sheets receipts) = true := by
  refine joinLines_framed ?_
  intro line member
  obtain ⟨p,-,rfl⟩ := List.mem_map.mp member
  exact sheet_framed fun one member => each one (List.mem_of_mem_drop (List.mem_of_mem_take member))

theorem plain_line {line : List Char} {rest : List String} (plain : '<' ∉ line) (later : ∀ other ∈ rest,'<' ∉ other.toList) :
    ∀ other ∈ String.ofList line :: rest,'<' ∉ other.toList := by
  intro other member
  rcases List.mem_cons.mp member with rfl | there
  · exact absent_text plain
  · exact later other there
theorem styleSheet_plain : '<' ∉ styleSheet.flatMap String.toList := by
  have each : ∀ line ∈ styleSheet,'<' ∉ line.toList := by
    unfold styleSheet
    repeat refine plain_line (by decide) ?_
    nofun
  intro member
  obtain ⟨line,here,found⟩ := List.mem_flatMap.mp member
  exact each line here found
theorem count_plain (count : Nat) : '<' ∉ (toString count).toList := by
  intro member
  have digits : (toString count).toList = Nat.toDigits 10 count := Nat.toList_repr
  rw [digits] at member
  exact absurd (Nat.isDigit_of_mem_toDigits (by decide) (by decide) member) (by decide)
theorem head_closed {front middle back count style : List Char} (title : (walk .data front).2 = .raw "title".toList)
    (counted : '<' ∉ count) (styled : (walk (.raw "title".toList) middle).2 = .raw "style".toList) (plain : '<' ∉ style)
    (ends : (walk (.raw "style".toList) back).2 = .data) :
    closed ((String.ofList front).toList ++ count ++ (String.ofList middle).toList ++ style ++ (String.ofList back).toList) = true := by
  simp only [String.toList_ofList]
  rw [closed,beq_iff_eq,walk_state,walk_state,walk_state,walk_state,title,walk_raw counted,styled,walk_raw plain,ends]
theorem receiptParts_framed (library : PrintLibrary) (rows : List PrintRow) : framed (receiptParts library rows) = true := by
  have first : framed [head rows.length] = true := by
    rw [head,framed,Bool.and_eq_true]
    exact ⟨head_closed (by decide) (count_plain _) (by decide) styleSheet_plain (by decide),rfl⟩
  refine framed_append (framed_append first (sheets_framed ?_)) (framed_piece (by decide) rfl)
  intro one member
  obtain ⟨row,-,rfl⟩ := List.mem_map.mp member
  exact receipt_framed library row

end Framing

section Contents

theorem escaped_harmless (text : String) : harmless (escapeHtml text).toList = true := harmless_plain (escapeHtml_plain text)
theorem dashed_harmless (text : String) : harmless (orDash (escapeHtml text)).toList = true :=
  harmless_plain (orDash_plain (escapeHtml_plain text))
theorem place_harmless (region district : String) : harmless (escapeHtml region ++ " " ++ escapeHtml district).toList = true := by
  apply harmless_plain
  simp [String.toList_append,escapeHtml_plain]
theorem date_harmless (library : PrintLibrary) (date : Nat) : harmless (formatDateStr library date).toList = true :=
  harmless_plain (library.localeDate _).plain
theorem price_harmless (library : PrintLibrary) (amount : Int) : harmless (formatCurrency library amount).toList = true := by
  apply harmless_plain
  simp [formatCurrency,String.toList_append,(library.localeNumber amount).plain]
theorem label_harmless (place : String) : harmless (whereDeliverLabel place).toList = true := by
  unfold whereDeliverLabel
  split
  · decide
  · decide

@[simp] theorem harmless_piece (text : String) (rest : List Part) : Harmless (piece text :: rest) ↔ Harmless rest := harmless_template _ _
@[simp] theorem harmless_shown (text : String) (rest : List Part) :
    Harmless (shown text :: rest) ↔ harmless text.toList = true ∧ Harmless rest := harmless_field _ _

theorem logo_harmless : Harmless beepostSvg := by
  intro part member
  simp only [beepostSvg,List.mem_append,List.mem_map,List.mem_singleton] at member
  rcases member with (rfl | ⟨path,-,rfl⟩) | rfl
  · rfl
  · rfl
  · rfl
theorem brandRow_harmless (row : PrintRow) : Harmless (brandRow row) ↔ ∀ number,row.orderNumber = some number → harmless number.toList = true := by
  have number : Harmless (orderNumberPart row) ↔ ∀ number,row.orderNumber = some number → harmless number.toList = true := by
    unfold orderNumberPart
    split
    · rename_i number here
      have marked : harmless ('#' :: number.toList) = harmless number.toList := harmless_cons (by decide) _
      simp [given_harmless here,marked]
    · rename_i none
      simp only [harmless_nil,true_iff]
      intro number here
      rw [given_none none number here]
      rfl
  unfold brandRow
  rw [harmless_append,harmless_append,harmless_append,harmless_append,number]
  simp [logo_harmless]
theorem qrImage_harmless (library : PrintLibrary) (row : PrintRow) : Harmless (qrImage library row) := by
  unfold qrImage
  split
  · split
    · simp
    · simp
  · simp

-- An empty number is not shown, and would do no harm.
theorem given_phone {phone : Option String} (none : given phone = none) : safePhone phone := by
  intro number here
  rw [given_none none number here]
  exact .inr rfl
theorem safePhone_some {phone : Option String} {number : String} (here : phone = some number) :
    safePhone phone ↔ isUzbekNumber number = true ∨ harmless number.toList = true := by
  rw [here]
  simp [safePhone]
theorem phoneDisplay_harmless (row : PrintRow) : Harmless (phoneDisplay row) ↔ safePhone row.customerPhone ∧ safePhone row.extraNumber := by
  have first : harmless (formatPhoneNumber (row.customerPhone.getD "")).toList = true ↔ safePhone row.customerPhone := by
    rw [formatPhoneNumber_harmless]
    cases here : row.customerPhone with
    | none => exact iff_of_true (.inr rfl) nofun
    | some number => exact (safePhone_some rfl).symm
  unfold phoneDisplay
  dsimp only
  rw [harmless_append,harmless_shown,first]
  cases here : given row.extraNumber with
  | none => simp [formatGiven_none here,given_phone here]
  | some number =>
    obtain ⟨same,some⟩ := formatGiven_some here
    rw [if_neg some,same,safePhone_some (given_harmless here),←formatPhoneNumber_harmless]
    simp
theorem contact_harmless (row : PrintRow) : Harmless (contactPhonesHtml row) ↔ safePhone row.marketPhone := by
  unfold contactPhonesHtml
  dsimp only
  cases here : given row.marketPhone with
  | none => simp [formatGiven_none here,given_phone here,harmless]
  | some number =>
    obtain ⟨same,some⟩ := formatGiven_some here
    rw [if_neg some,same,safePhone_some (given_harmless here),←formatPhoneNumber_harmless]
    simp
theorem receipt_harmless (library : PrintLibrary) (row : PrintRow) : Harmless (receipt library row) ↔ Safe row := by
  unfold receipt panels
  rw [harmless_append,harmless_append,harmless_append,harmless_append,harmless_append,harmless_append,brandRow_harmless,
    phoneDisplay_harmless,contact_harmless]
  simp only [qrImage_harmless,harmless_piece,harmless_shown,harmless_nil,escaped_harmless,dashed_harmless,place_harmless,date_harmless,
    price_harmless,label_harmless,true_and,and_true]
  constructor
  · rintro ⟨number,⟨customer,extra⟩,market⟩
    exact ⟨number,customer,extra,market⟩
  · rintro ⟨number,customer,extra,market⟩
    exact ⟨number,⟨customer,extra⟩,market⟩

theorem joinLines_harmless (lines : List (List Part)) : Harmless (joinLines lines) ↔ ∀ line ∈ lines,Harmless line := by
  induction lines with
  | nil => simp [joinLines]
  | cons line rest ih =>
    cases rest with
    | nil => simp [joinLines]
    | cons next others =>
      rw [joinLines_cons,harmless_append,harmless_piece,ih]
      exact List.forall_mem_cons.symm
theorem cell_harmless (receipts : List (List Part)) (place : Nat) :
    Harmless ((receipts[place]?).getD emptyCell) ↔ ∀ one,receipts[place]? = some one → Harmless one := by
  cases receipts[place]? with
  | none => simp [emptyCell]
  | some one => simp
theorem gridRow_harmless (receipts : List (List Part)) (r : Nat) : Harmless (gridRow receipts r) ↔
    ∀ place,place / 2 = r → ∀ one,receipts[place]? = some one → Harmless one := by
  unfold gridRow
  rw [harmless_append,harmless_append,harmless_append,cell_harmless,cell_harmless]
  simp only [harmless_piece,harmless_nil,true_and,and_true]
  constructor
  · rintro ⟨left,right⟩ place here
    have side : place = r * 2 ∨ place = r * 2 + 1 := by omega
    rcases side with rfl | rfl
    · exact left
    · exact right
  · intro each
    exact ⟨each _ (by omega),each _ (by omega)⟩
theorem sheet_harmless {receipts : List (List Part)} (fits : receipts.length ≤ 12) :
    Harmless (sheet receipts) ↔ ∀ one ∈ receipts,Harmless one := by
  unfold sheet
  rw [harmless_append,harmless_append,joinLines_harmless,List.forall_mem_map]
  simp only [harmless_piece,harmless_nil,true_and,and_true,gridRow_harmless,List.mem_range]
  constructor
  · intro each one member
    obtain ⟨place,here⟩ := List.getElem?_of_mem member
    have bound := (List.getElem?_eq_some_iff.mp here).1
    exact each (place / 2) (by omega) place rfl one here
  · intro each r _ place _ one here
    exact each one (List.mem_of_getElem? here)
theorem sheets_harmless (receipts : List (List Part)) : Harmless (sheets receipts) ↔ ∀ one ∈ receipts,Harmless one := by
  unfold sheets
  rw [joinLines_harmless,List.forall_mem_map]
  have page : ∀ p,Harmless (sheet ((receipts.drop (p * 12)).take 12)) ↔ ∀ one ∈ (receipts.drop (p * 12)).take 12,Harmless one :=
    fun p => sheet_harmless (List.length_take_le _ _)
  simp only [page,List.mem_range]
  constructor
  · intro each one member
    obtain ⟨place,here⟩ := List.getElem?_of_mem member
    have bound := (List.getElem?_eq_some_iff.mp here).1
    refine each (place / 12) (by omega) one (List.mem_of_getElem? (i := place % 12) ?_)
    have whole : place / 12 * 12 + place % 12 = place := by omega
    rw [List.getElem?_take,if_pos (by omega),List.getElem?_drop,whole]
    exact here
  · intro each p _ one member
    exact each one (List.mem_of_mem_drop (List.mem_of_mem_take member))

theorem receiptParts_harmless (library : PrintLibrary) (rows : List PrintRow) :
    Harmless (receiptParts library rows) ↔ ∀ row ∈ rows,Safe row := by
  unfold receiptParts head foot
  rw [harmless_append,harmless_append,sheets_harmless,List.forall_mem_map]
  simp [receipt_harmless]

end Contents

section Pieces

def pieces (parts : List Part) : List (List Char) := parts.filterMap template
theorem pieces_append (first second : List Part) : pieces (first ++ second) = pieces first ++ pieces second := List.filterMap_append
@[simp] theorem pieces_piece (text : String) (rest : List Part) : pieces (piece text :: rest) = text.toList :: pieces rest := rfl
@[simp] theorem pieces_shown (text : String) (rest : List Part) : pieces (shown text :: rest) = pieces rest := rfl
@[simp] theorem pieces_nil : pieces [] = [] := rfl

theorem isSome_cases {α : Type} {one other : Option α} (same : one.isSome = other.isSome) :
    one = none ∧ other = none ∨ ∃ a b,one = some a ∧ other = some b := by
  cases one with
  | none =>
    cases other with
    | none => exact .inl ⟨rfl,rfl⟩
    | some b => cases same
  | some a =>
    cases other with
    | none => cases same
    | some b => exact .inr ⟨a,b,rfl,rfl⟩

theorem receipt_pieces (library : PrintLibrary) {row other : PrintRow} (same : SameShape row other) :
    pieces (receipt library row) = pieces (receipt library other) := by
  have number : pieces (orderNumberPart row) = pieces (orderNumberPart other) := by
    unfold orderNumberPart
    rcases isSome_cases same.orderNumber with ⟨one,two⟩ | ⟨_,_,one,two⟩
    · rw [one,two]
    · rw [one,two]
      simp
  have phones : pieces (phoneDisplay row) = pieces (phoneDisplay other) := by
    unfold phoneDisplay
    rcases isSome_cases same.extraNumber with ⟨one,two⟩ | ⟨_,_,one,two⟩
    · simp [formatGiven_none one,formatGiven_none two]
    · simp [(formatGiven_some one).2,(formatGiven_some two).2]
  have contact : pieces (contactPhonesHtml row) = pieces (contactPhonesHtml other) := by
    unfold contactPhonesHtml
    rcases isSome_cases same.marketPhone with ⟨one,two⟩ | ⟨_,_,one,two⟩
    · simp [formatGiven_none one,formatGiven_none two]
    · simp [(formatGiven_some one).2,(formatGiven_some two).2]
  simp only [receipt,brandRow,qrImage,panels,pieces_append,number,phones,contact,same.qrCodeToken,pieces_piece,pieces_shown]

-- The layout puts receipts with the same pieces in the same places.
theorem joinLines_pieces {lines others : List (List Part)} (same : lines.map pieces = others.map pieces) :
    pieces (joinLines lines) = pieces (joinLines others) := by
  induction lines generalizing others with
  | nil =>
    cases others with
    | nil => rfl
    | cons line rest => cases same
  | cons line rest ih =>
    cases others with
    | nil => cases same
    | cons line' rest' =>
      obtain ⟨first,later⟩ := List.cons.inj same
      have joined := ih later
      cases rest with
      | nil =>
        cases rest' with
        | nil => exact first
        | cons next more => cases later
      | cons next more =>
        cases rest' with
        | nil => cases later
        | cons next' more' =>
          rw [joinLines_cons,joinLines_cons,pieces_append,pieces_append,first,pieces_piece,pieces_piece,joined]
theorem cell_pieces {receipts others : List (List Part)} (same : receipts.map pieces = others.map pieces) (place : Nat) :
    pieces ((receipts[place]?).getD emptyCell) = pieces ((others[place]?).getD emptyCell) := by
  have at' := congrArg (fun lines : List (List (List Char)) => lines[place]?) same
  simp only [List.getElem?_map] at at'
  cases one : receipts[place]? with
  | none =>
    cases two : others[place]? with
    | none => rfl
    | some b => simp [one,two] at at'
  | some a =>
    cases two : others[place]? with
    | none => simp [one,two] at at'
    | some b => simpa [one,two] using at'
theorem sheet_pieces {receipts others : List (List Part)} (same : receipts.map pieces = others.map pieces) :
    pieces (sheet receipts) = pieces (sheet others) := by
  have rows : ((List.range 6).map (gridRow receipts)).map pieces = ((List.range 6).map (gridRow others)).map pieces := by
    rw [List.map_map,List.map_map]
    refine List.map_congr_left fun r _ => ?_
    simp only [Function.comp_apply,gridRow,pieces_append,cell_pieces same]
  unfold sheet
  rw [pieces_append,pieces_append,pieces_append,pieces_append,joinLines_pieces rows]
theorem sheets_pieces {receipts others : List (List Part)} (same : receipts.map pieces = others.map pieces) :
    pieces (sheets receipts) = pieces (sheets others) := by
  have count : receipts.length = others.length := by simpa using congrArg List.length same
  unfold sheets
  rw [count]
  apply joinLines_pieces
  rw [List.map_map,List.map_map]
  refine List.map_congr_left fun p _ => sheet_pieces ?_
  rw [List.map_take,List.map_drop,same,List.map_take,List.map_drop]
theorem receiptParts_pieces (library : PrintLibrary) {rows others : List PrintRow} (same : List.Forall₂ SameShape rows others) :
    pieces (receiptParts library rows) = pieces (receiptParts library others) := by
  have receipts : (rows.map (receipt library)).map pieces = (others.map (receipt library)).map pieces := by
    induction same with
    | nil => rfl
    | cons shape _ ih => rw [List.map_cons,List.map_cons,List.map_cons,List.map_cons,ih,receipt_pieces library shape]
  unfold receiptParts
  rw [pieces_append,pieces_append,pieces_append,pieces_append,sheets_pieces receipts,same.length_eq]

end Pieces

-- The contents of a receipt come out as text, and nothing of them as markup.
def ContentsAsText (library : PrintLibrary) (rows : List PrintRow) : Prop :=
  tokens (renderReceiptHtml library rows).toList = (receiptParts library rows).flatMap Part.meant
theorem contentsAsText_iff (library : PrintLibrary) (rows : List PrintRow) :
    ContentsAsText library rows ↔ ∀ row ∈ rows,Safe row := by
  rw [ContentsAsText,renderReceiptHtml,String.toList_ofList]
  exact (onlyText_iff (receiptParts_framed library rows)).trans (receiptParts_harmless library rows)

-- Two assignments of texts to the same rows.
theorem receipts_unaltered (library : PrintLibrary) {rows others : List PrintRow} (same : List.Forall₂ SameShape rows others) :
    (markup (renderReceiptHtml library rows).toList = markup (renderReceiptHtml library others).toList ∧
      ContentsAsText library rows ∧ ContentsAsText library others) ↔
    (∀ row ∈ rows,Safe row) ∧ ∀ row ∈ others,Safe row := by
  rw [contentsAsText_iff,contentsAsText_iff]
  constructor
  · rintro ⟨-,safe⟩
    exact safe
  · intro safe
    refine ⟨?_,safe⟩
    have one := (onlyText_iff (receiptParts_framed library rows)).mpr ((receiptParts_harmless library rows).mpr safe.1)
    have two := (onlyText_iff (receiptParts_framed library others)).mpr ((receiptParts_harmless library others).mpr safe.2)
    rw [renderReceiptHtml,renderReceiptHtml,String.toList_ofList,String.toList_ofList,onlyText_markup one,onlyText_markup two]
    exact congrArg (List.flatMap markup) (receiptParts_pieces library same)

def plainLibrary : PrintLibrary :=
  {now:=1,localeNumber:=fun _ => ⟨"0",by decide⟩,localeDate:=fun _ => ⟨"1/1/1970",by decide⟩,dataUrl:=fun _ => none}
def phoneRow (phone : String) : PrintRow := {customerName:=some "Ali",customerPhone:=some phone}
def hostile : String := "<img src=x onerror=alert(1)>"

theorem phoneRow_safe {phone : String} (safe : isUzbekNumber phone = true ∨ harmless phone.toList = true) : ∀ row ∈ [phoneRow phone],Safe row := by
  intro row member
  cases List.mem_singleton.mp member
  exact ⟨nofun,(safePhone_some rfl).mpr safe,nofun,nofun⟩
theorem phoneRow_same (phone other : String) : List.Forall₂ SameShape [phoneRow phone] [phoneRow other] := .cons ⟨rfl,rfl,rfl,rfl⟩ .nil
theorem receipts_unaltered_ordinary :
    markup (renderReceiptHtml plainLibrary [phoneRow "+998 90 123-45-67"]).toList = markup
      (renderReceiptHtml plainLibrary [phoneRow "a < b"]).toList ∧
    ContentsAsText plainLibrary [phoneRow "+998 90 123-45-67"] ∧ ContentsAsText plainLibrary [phoneRow "a < b"] :=
  (receipts_unaltered plainLibrary (phoneRow_same _ _)).mpr ⟨phoneRow_safe (.inl (by decide)),phoneRow_safe (.inr (by decide))⟩

-- The receipt of one order: what stands before its customer's phone, and after it.
def beforePhone : List Part :=
  [head 1,piece "<div class=\"page\">",piece "<div class=\"grid-row\">"] ++ brandRow (phoneRow "") ++ (panels plainLibrary (phoneRow "")).take 5
def afterPhone : List Part := (panels plainLibrary (phoneRow "")).drop 6 ++ (sheets [[]]).drop 2 ++ [foot]
-- The receipt fills the first cell; the other rows are those of a page without receipts.
theorem gridRow_one (one : List Part) :
    gridRow [one] 0 = piece "<div class=\"grid-row\">" :: (one ++ (gridRow [[]] 0).drop 1) := by
  simp only [gridRow,List.append_assoc,List.cons_append,List.nil_append]
  rfl
theorem sheets_one (one : List Part) :
    sheets [one] = [piece "<div class=\"page\">",piece "<div class=\"grid-row\">"] ++ one ++ (sheets [[]]).drop 2 := by
  have layout : ∀ receipt : List Part,sheets [receipt] = [piece "<div class=\"page\">"] ++
      (gridRow [receipt] 0 ++ piece "\n" :: joinLines ([1,2,3,4,5].map (gridRow [receipt]))) ++ [piece "</div>"] := by
    intro receipt
    have rows : List.range 6 = [0,1,2,3,4,5] := by decide
    have pages : ([receipt].length + 11) / 12 = 1 := by simp
    have alone : sheets [receipt] = sheet [receipt] := by
      rw [sheets,pages]
      rfl
    rw [alone,sheet,rows,List.map_cons,List.map_cons,joinLines_cons]
  have others : joinLines ([1,2,3,4,5].map (gridRow [one])) = joinLines ([1,2,3,4,5].map (gridRow [[]])) := rfl
  rw [layout one,gridRow_one,others]
  simp only [List.append_assoc,List.cons_append,List.nil_append]
  rfl
theorem phoneRow_parts (phone : String) :
    receiptParts plainLibrary [phoneRow phone] = beforePhone ++ .field (formatPhoneNumber phone).toList :: afterPhone := by
  have same : receipt plainLibrary (phoneRow phone) = brandRow (phoneRow "") ++ ((panels plainLibrary (phoneRow "")).take 5 ++
      .field (formatPhoneNumber phone).toList :: (panels plainLibrary (phoneRow "")).drop 6) := rfl
  rw [receiptParts,List.map_cons,List.map_nil,sheets_one,same]
  simp [beforePhone,afterPhone]
theorem beforePhone_fields : beforePhone.filterMap Part.field? = ["1/1/1970".toList,(escapeHtml "Ali").toList] := by
  have logo : beepostSvg.filterMap Part.field? = [] := by
    rw [List.filterMap_eq_nil_iff]
    intro part member
    simp only [beepostSvg,List.mem_append,List.mem_map,List.mem_singleton] at member
    rcases member with (rfl | ⟨path,-,rfl⟩) | rfl
    · rfl
    · rfl
    · rfl
  simp only [beforePhone,brandRow,List.filterMap_append,logo]
  rfl
theorem phoneRow_markup {phone : String} (other : isUzbekNumber phone = false) (complete : closed phone.toList = true) :
    markup (renderReceiptHtml plainLibrary [phoneRow phone]).toList =
      markup (page beforePhone) ++ markup phone.toList ++ markup (page afterPhone) := by
  have frame := receiptParts_framed plainLibrary [phoneRow phone]
  rw [phoneRow_parts] at frame
  have plain : ∀ text ∈ beforePhone.filterMap Part.field?,'<' ∉ text := by
    rw [beforePhone_fields]
    decide
  rw [renderReceiptHtml,String.toList_ofList,phoneRow_parts,formatPhoneNumber_other other]
  exact markup_inserted (page_closed (framed_split frame) plain) complete

def imageTag (src onerror : String) : Token :=
  .tag ⟨false,"img".toList,[("src".toList,src.toList),("onerror".toList,onerror.toList)],false⟩
theorem hostile_markup : markup hostile.toList = [imageTag "x" "alert(1)"] := by decide
theorem inserted_differs {α : Type} (front back : List α) (one : α) : front ++ [] ++ back ≠ front ++ [one] ++ back := by
  intro same
  have count := congrArg List.length same
  simp at count
-- An image tag as the customer's phone: it is in the page.
theorem receipt_altered : List.Forall₂ SameShape [phoneRow "901234567"] [phoneRow hostile] ∧
    markup (renderReceiptHtml plainLibrary [phoneRow "901234567"]).toList ≠ markup (renderReceiptHtml plainLibrary [phoneRow hostile]).toList ∧
    imageTag "x" "alert(1)" ∈ markup (renderReceiptHtml plainLibrary [phoneRow hostile]).toList ∧
    ¬ContentsAsText plainLibrary [phoneRow hostile] := by
  have quiet : markup "901234567".toList = [] := by decide
  have one : markup (renderReceiptHtml plainLibrary [phoneRow "901234567"]).toList = _ := phoneRow_markup (by decide) (by decide)
  have two : markup (renderReceiptHtml plainLibrary [phoneRow hostile]).toList = _ := phoneRow_markup (by decide) (by decide)
  rw [quiet] at one
  rw [hostile_markup] at two
  refine ⟨phoneRow_same _ _,?_,?_,?_⟩
  · rw [one,two]
    exact inserted_differs _ _ _
  · rw [two]
    exact List.mem_append_left _ (List.mem_append_right _ List.mem_cons_self)
  · rw [contentsAsText_iff]
    intro safe
    rcases (safe _ (List.mem_singleton.mpr rfl)).customerPhone hostile rfl with uzbek | harmless
    · exact absurd uzbek (by decide)
    · exact absurd harmless (by decide)

end Elchi.Printing

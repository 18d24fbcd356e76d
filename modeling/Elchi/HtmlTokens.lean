import Mathlib.Data.List.Basic
namespace Elchi.Html

-- How a browser cuts a page into tags, comments and text, a character at a time. Text is what it
-- finds between them; character references are not resolved, so they stay text.
structure Tag where
  closing : Bool
  name : List Char := []
  attributes : List (List Char × List Char) := []
  selfClosing : Bool := false
deriving DecidableEq, Repr

inductive Token where
  | text (c : Char)
  | tag (tag : Tag)
  | comment (text : List Char)
  | doctype (text : List Char)
deriving DecidableEq, Repr

-- Attributes and comments are collected backwards.
inductive State where
  | data
  | tagOpen
  | endTagOpen
  | tagName (tag : Tag)
  | beforeAttributeName (tag : Tag)
  | attributeName (tag : Tag) (name : List Char)
  | afterAttributeName (tag : Tag) (name : List Char)
  | beforeAttributeValue (tag : Tag) (name : List Char)
  | quotedValue (tag : Tag) (name : List Char) (quote : Char) (value : List Char)
  | unquotedValue (tag : Tag) (name value : List Char)
  | afterQuotedValue (tag : Tag)
  | selfClosingStartTag (tag : Tag)
  | bogusComment (text : List Char)
  | markupDeclaration (seen : List Char)
  | comment (text : List Char)
  | doctype (text : List Char)
  | raw (element : List Char)
  | rawLessThan (element : List Char)
  | rawEndTag (element seen : List Char)
deriving DecidableEq, Repr

def blank (c : Char) : Bool := c == ' ' || c == '\n' || c == '\t' || c == '\r' || c == '\u000C'
-- What makes a '<' before it the start of markup.
def opens (c : Char) : Bool := c.isAlpha || c == '/' || c == '!' || c == '?'

-- Elements that hold text only, up to their own end tag: a script's comments, which may hide the
-- end tag, are not told apart.
def rawElements : List String := ["title","textarea","style","script","xmp","iframe","noembed","noframes","noscript"]
def contentState (tag : Tag) : State :=
  if !tag.closing && rawElements.contains (String.ofList tag.name) then .raw tag.name
  else if !tag.closing && tag.name == "plaintext".toList then .raw []
  else .data

def Tag.named (tag : Tag) (c : Char) : Tag := {tag with name:=tag.name ++ [c.toLower]}
-- A second attribute of one name is dropped.
def Tag.withAttribute (tag : Tag) (name value : List Char) : Tag :=
  if tag.attributes.any fun other => other.1 == name.reverse then tag
  else {tag with attributes:=tag.attributes ++ [(name.reverse,value.reverse)]}

def emit (tag : Tag) : List Token × State := ([.tag tag],contentState tag)
def texts (chars : List Char) : List Token := chars.map .text

-- The text after "<!--" ends the comment.
def endsComment (text : List Char) : Bool :=
  text == ['>'] || text == ['>','-'] || ['>','-','-'].isPrefixOf text || ['>','!','-','-'].isPrefixOf text
def commentText (text : List Char) : List Char :=
  ((if ['>','-','-'].isPrefixOf text then text.drop 3 else if ['>','!','-','-'].isPrefixOf text then text.drop 4 else []) : List Char).reverse

def inBogusComment (text : List Char) (c : Char) : List Token × State :=
  if c = '>' then ([.comment text.reverse],.data) else ([],.bogusComment (c :: text))
def inData (c : Char) : List Token × State := if c = '<' then ([],.tagOpen) else ([.text c],.data)
def inAttributeName (tag : Tag) (name : List Char) (c : Char) : List Token × State :=
  if blank c then ([],.afterAttributeName tag name)
  else if c = '/' then ([],.selfClosingStartTag (tag.withAttribute name []))
  else if c = '>' then emit (tag.withAttribute name [])
  else if c = '=' then ([],.beforeAttributeValue tag name)
  else ([],.attributeName tag (c.toLower :: name))
def inBeforeAttributeName (tag : Tag) (c : Char) : List Token × State :=
  if blank c then ([],.beforeAttributeName tag)
  else if c = '/' then ([],.selfClosingStartTag tag)
  else if c = '>' then emit tag
  else if c = '=' then ([],.attributeName tag ['='])
  else inAttributeName tag [] c
def inRaw (element : List Char) (c : Char) : List Token × State :=
  if c = '<' then ([],.rawLessThan element) else ([.text c],.raw element)

def step : State → Char → List Token × State
  | .data,c => inData c
  | .tagOpen,c =>
    if c.isAlpha then ([],.tagName (Tag.named {closing:=false} c))
    else if c = '/' then ([],.endTagOpen)
    else if c = '!' then ([],.markupDeclaration [])
    else if c = '?' then ([],.bogusComment [c])
    else (.text '<' :: (inData c).1,(inData c).2)
  | .endTagOpen,c =>
    if c.isAlpha then ([],.tagName (Tag.named {closing:=true} c))
    else if c = '>' then ([],.data)
    else ([],.bogusComment [c])
  | .tagName tag,c =>
    if blank c then ([],.beforeAttributeName tag)
    else if c = '/' then ([],.selfClosingStartTag tag)
    else if c = '>' then emit tag
    else ([],.tagName (tag.named c))
  | .beforeAttributeName tag,c => inBeforeAttributeName tag c
  | .attributeName tag name,c => inAttributeName tag name c
  | .afterAttributeName tag name,c =>
    if blank c then ([],.afterAttributeName tag name)
    else if c = '=' then ([],.beforeAttributeValue tag name)
    else inBeforeAttributeName (tag.withAttribute name []) c
  | .beforeAttributeValue tag name,c =>
    if blank c then ([],.beforeAttributeValue tag name)
    else if c = '"' || c = '\'' then ([],.quotedValue tag name c [])
    else if c = '>' then emit (tag.withAttribute name [])
    else ([],.unquotedValue tag name [c])
  | .quotedValue tag name quote value,c =>
    if c = quote then ([],.afterQuotedValue (tag.withAttribute name value)) else ([],.quotedValue tag name quote (c :: value))
  | .unquotedValue tag name value,c =>
    if blank c then ([],.beforeAttributeName (tag.withAttribute name value))
    else if c = '>' then emit (tag.withAttribute name value)
    else ([],.unquotedValue tag name (c :: value))
  | .afterQuotedValue tag,c => inBeforeAttributeName tag c
  | .selfClosingStartTag tag,c => if c = '>' then emit {tag with selfClosing:=true} else inBeforeAttributeName tag c
  | .bogusComment text,c => inBogusComment text c
  | .markupDeclaration seen,c =>
    let read := c :: seen
    if read = ['-','-'] then ([],.comment [])
    else if (read.map Char.toLower).reverse = "doctype".toList then ([],.doctype [])
    else if read = ['-'] || ((read.map Char.toLower).reverse.isPrefixOf "doctype".toList) then ([],.markupDeclaration read)
    else inBogusComment seen c
  | .comment text,c =>
    if endsComment (c :: text) then ([.comment (commentText (c :: text))],.data) else ([],.comment (c :: text))
  | .doctype text,c => if c = '>' then ([.doctype text.reverse],.data) else ([],.doctype (c :: text))
  | .raw element,c => inRaw element c
  | .rawLessThan element,c =>
    if c = '/' then ([],.rawEndTag element []) else (.text '<' :: (inRaw element c).1,(inRaw element c).2)
  | .rawEndTag element seen,c =>
    if c.isAlpha then ([],.rawEndTag element (c :: seen))
    else if (seen.map Char.toLower).reverse = element ∧ element ≠ [] ∧ (blank c ∨ c = '/' ∨ c = '>') then
      inBeforeAttributeName {closing:=true,name:=element} c
    else (texts (['<','/'] ++ seen.reverse) ++ (inRaw element c).1,(inRaw element c).2)

-- The page ends: what was read of a tag is lost, the rest is kept.
def finish : State → List Token
  | .tagOpen => texts ['<']
  | .endTagOpen => texts ['<','/']
  | .bogusComment text => [.comment text.reverse]
  | .markupDeclaration seen => [.comment seen.reverse]
  | .comment text => [.comment text.reverse]
  | .doctype text => [.doctype text.reverse]
  | .rawLessThan _ => texts ['<']
  | .rawEndTag _ seen => texts (['<','/'] ++ seen.reverse)
  | _ => []

def walk : State → List Char → List Token × State
  | state,[] => ([],state)
  | state,c :: rest => ((step state c).1 ++ (walk (step state c).2 rest).1,(walk (step state c).2 rest).2)
def tokensFrom (state : State) (input : List Char) : List Token := (walk state input).1 ++ finish (walk state input).2
def tokens (input : List Char) : List Token := tokensFrom .data input

def Token.isMarkup : Token → Bool
  | .text _ => false
  | _ => true
-- The tags of a page with their attributes, and its comments: all but the text.
def markup (page : List Char) : List Token := (tokens page).filter Token.isMarkup

-- No '<' of the text starts markup, whatever follows the text.
def harmless : List Char → Bool
  | c :: d :: rest => !(c == '<' && opens d) && harmless (d :: rest)
  | _ => true

theorem walk_cons (state : State) (c : Char) (rest : List Char) :
    walk state (c :: rest) = ((step state c).1 ++ (walk (step state c).2 rest).1,(walk (step state c).2 rest).2) := rfl
theorem step_data (c : Char) : step .data c = inData c := rfl
theorem step_tagOpen (c : Char) : step .tagOpen c =
    if c.isAlpha then ([],.tagName (Tag.named {closing:=false} c))
    else if c = '/' then ([],.endTagOpen)
    else if c = '!' then ([],.markupDeclaration [])
    else if c = '?' then ([],.bogusComment [c])
    else (.text '<' :: (inData c).1,(inData c).2) := rfl
theorem step_endTagOpen (c : Char) : step .endTagOpen c =
    if c.isAlpha then ([],.tagName (Tag.named {closing:=true} c)) else if c = '>' then ([],.data) else ([],.bogusComment [c]) := rfl
theorem step_raw (element : List Char) (c : Char) : step (.raw element) c = inRaw element c := rfl
theorem step_quoted (tag : Tag) (name value : List Char) (quote c : Char) : step (.quotedValue tag name quote value) c =
    if c = quote then ([],.afterQuotedValue (tag.withAttribute name value)) else ([],.quotedValue tag name quote (c :: value)) := rfl
theorem walk_append (state : State) (u v : List Char) :
    walk state (u ++ v) = ((walk state u).1 ++ (walk (walk state u).2 v).1,(walk (walk state u).2 v).2) := by
  induction u generalizing state with
  | nil => rfl
  | cons c rest ih => simp [walk_cons,ih]
theorem walk_state (state : State) (u v : List Char) : (walk state (u ++ v)).2 = (walk (walk state u).2 v).2 := by rw [walk_append]
theorem tokensFrom_append (state : State) (u v : List Char) :
    tokensFrom state (u ++ v) = (walk state u).1 ++ tokensFrom (walk state u).2 v := by
  simp [tokensFrom,walk_append]
theorem tokensFrom_cons (state : State) (c : Char) (rest : List Char) :
    tokensFrom state (c :: rest) = (step state c).1 ++ tokensFrom (step state c).2 rest := by
  simp [tokensFrom,walk_cons]

theorem walk_plain {chars : List Char} (plain : '<' ∉ chars) : walk .data chars = (texts chars,.data) := by
  induction chars with
  | nil => rfl
  | cons c rest ih =>
    have apart : c ≠ '<' := fun same => plain (same ▸ List.mem_cons_self)
    simp [walk_cons,step_data,inData,apart,ih fun member => plain (List.mem_cons_of_mem _ member),texts]
theorem walk_raw {element chars : List Char} (plain : '<' ∉ chars) : walk (.raw element) chars = (texts chars,.raw element) := by
  induction chars with
  | nil => rfl
  | cons c rest ih =>
    have apart : c ≠ '<' := fun same => plain (same ▸ List.mem_cons_self)
    simp [walk_cons,step_raw,inRaw,apart,ih fun member => plain (List.mem_cons_of_mem _ member),texts]
theorem walk_quoted {tag : Tag} {name value chars : List Char} {quote : Char} (inside : quote ∉ chars) :
    walk (.quotedValue tag name quote value) chars = ([],.quotedValue tag name quote (chars.reverse ++ value)) := by
  induction chars generalizing value with
  | nil => rfl
  | cons c rest ih =>
    have apart : c ≠ quote := fun same => inside (same ▸ List.mem_cons_self)
    simp [walk_cons,step_quoted,apart,ih fun member => inside (List.mem_cons_of_mem _ member)]

-- Between the start of markup and its end no text is found.
def State.inMarkup : State → Bool
  | .data | .tagOpen | .endTagOpen | .raw _ | .rawLessThan _ | .rawEndTag _ _ => false
  | _ => true
def Stays (result : List Token × State) : Prop :=
  result.1 = [] ∧ result.2.inMarkup = true ∨ ∃ token,token.isMarkup = true ∧ result.1 = [token]

theorem emit_stays (tag : Tag) : Stays (emit tag) := .inr ⟨.tag tag,rfl,rfl⟩
theorem inBogusComment_stays (text : List Char) (c : Char) : Stays (inBogusComment text c) := by
  unfold inBogusComment
  split
  · exact .inr ⟨_,rfl,rfl⟩
  · exact .inl ⟨rfl,rfl⟩
theorem inAttributeName_stays (tag : Tag) (name : List Char) (c : Char) : Stays (inAttributeName tag name c) := by
  unfold inAttributeName
  split_ifs
  · exact .inl ⟨rfl,rfl⟩
  · exact .inl ⟨rfl,rfl⟩
  · exact emit_stays _
  · exact .inl ⟨rfl,rfl⟩
  · exact .inl ⟨rfl,rfl⟩
theorem inBeforeAttributeName_stays (tag : Tag) (c : Char) : Stays (inBeforeAttributeName tag c) := by
  unfold inBeforeAttributeName
  split_ifs
  · exact .inl ⟨rfl,rfl⟩
  · exact .inl ⟨rfl,rfl⟩
  · exact emit_stays _
  · exact .inl ⟨rfl,rfl⟩
  · exact inAttributeName_stays _ _ _

theorem step_stays {state : State} (inside : state.inMarkup = true) (c : Char) : Stays (step state c) := by
  cases state with
  | data => cases inside
  | tagOpen => cases inside
  | endTagOpen => cases inside
  | raw element => cases inside
  | rawLessThan element => cases inside
  | rawEndTag element seen => cases inside
  | tagName tag =>
    simp only [step]
    split_ifs
    · exact .inl ⟨rfl,rfl⟩
    · exact .inl ⟨rfl,rfl⟩
    · exact emit_stays _
    · exact .inl ⟨rfl,rfl⟩
  | beforeAttributeName tag => exact inBeforeAttributeName_stays _ _
  | attributeName tag name => exact inAttributeName_stays _ _ _
  | afterAttributeName tag name =>
    simp only [step]
    split_ifs
    · exact .inl ⟨rfl,rfl⟩
    · exact .inl ⟨rfl,rfl⟩
    · exact inBeforeAttributeName_stays _ _
  | beforeAttributeValue tag name =>
    simp only [step]
    split_ifs
    · exact .inl ⟨rfl,rfl⟩
    · exact .inl ⟨rfl,rfl⟩
    · exact emit_stays _
    · exact .inl ⟨rfl,rfl⟩
  | quotedValue tag name quote value =>
    simp only [step]
    split_ifs
    · exact .inl ⟨rfl,rfl⟩
    · exact .inl ⟨rfl,rfl⟩
  | unquotedValue tag name value =>
    simp only [step]
    split_ifs
    · exact .inl ⟨rfl,rfl⟩
    · exact emit_stays _
    · exact .inl ⟨rfl,rfl⟩
  | afterQuotedValue tag => exact inBeforeAttributeName_stays _ _
  | selfClosingStartTag tag =>
    simp only [step]
    split_ifs
    · exact emit_stays _
    · exact inBeforeAttributeName_stays _ _
  | bogusComment text => exact inBogusComment_stays _ _
  | markupDeclaration seen =>
    simp only [step]
    split_ifs
    · exact .inl ⟨rfl,rfl⟩
    · exact .inl ⟨rfl,rfl⟩
    · exact .inl ⟨rfl,rfl⟩
    · exact inBogusComment_stays _ _
  | comment text =>
    simp only [step]
    split_ifs
    · exact .inr ⟨_,rfl,rfl⟩
    · exact .inl ⟨rfl,rfl⟩
  | doctype text =>
    simp only [step]
    split_ifs
    · exact .inr ⟨_,rfl,rfl⟩
    · exact .inl ⟨rfl,rfl⟩

def startsWithText : List Token → Bool
  | .text _ :: _ => true
  | _ => false
theorem inMarkup_text {state : State} (inside : state.inMarkup = true) (input : List Char) :
    startsWithText (tokensFrom state input) = false := by
  induction input generalizing state with
  | nil => cases state <;> first | rfl | cases inside
  | cons c rest ih =>
    rw [tokensFrom_cons]
    rcases step_stays inside c with ⟨quiet,still⟩ | ⟨token,markup,emitted⟩
    · rw [quiet]
      exact ih still
    · rw [emitted]
      cases token with
      | text c => cases markup
      | tag tag => rfl
      | comment text => rfl
      | doctype text => rfl

-- A page put together from pieces of markup and from fields that are to be shown as text.
inductive Part where
  | template (text : List Char)
  | field (text : List Char)
deriving DecidableEq, Repr
def Part.chars : Part → List Char
  | .template text => text
  | .field text => text
def Part.meant : Part → List Token
  | .template text => tokens text
  | .field text => texts text
def Part.harmless : Part → Bool
  | .template _ => true
  | .field text => Html.harmless text
def page (parts : List Part) : List Char := parts.flatMap Part.chars
def OnlyText (parts : List Part) : Prop := tokens (page parts) = parts.flatMap Part.meant

-- A piece is complete markup, and one that follows a field begins with a tag.
def closed (text : List Char) : Bool := (walk .data text).2 == .data
def fronted (text : List Char) : Bool := text.head? == some '<' && !(walk .data text).1.isEmpty && !startsWithText (walk .data text).1
def begins : List Part → Bool
  | .template text :: _ => fronted text
  | _ => false
def framed : List Part → Bool
  | [] => true
  | .template text :: rest => closed text && framed rest
  | .field _ :: rest => begins rest && framed rest

theorem closed_tokens {text : List Char} (complete : closed text = true) (rest : List Char) :
    tokens (text ++ rest) = tokens text ++ tokens rest := by
  have ends : (walk .data text).2 = .data := by simpa [closed] using complete
  simp [tokens,tokensFrom,walk_append,ends,finish]

theorem begins_page {parts : List Part} (front : begins parts = true) :
    (∃ rest,page parts = '<' :: rest) ∧ startsWithText (tokens (page parts)) = false := by
  cases parts with
  | nil => cases front
  | cons part rest =>
    cases part with
    | field text => cases front
    | template text =>
      simp only [begins,fronted,Bool.and_eq_true,beq_iff_eq,Bool.not_eq_true'] at front
      obtain ⟨⟨first,some⟩,markup⟩ := front
      constructor
      · cases text with
        | nil => cases first
        | cons c others =>
          cases first
          exact ⟨_,rfl⟩
      · rw [page,List.flatMap_cons,Part.chars,tokens,tokensFrom_append]
        cases found : (walk .data text).1 with
        | nil =>
          rw [found] at some
          cases some
        | cons token others =>
          rw [found] at markup
          cases token with
          | text c => cases markup
          | tag tag => rfl
          | comment text => rfl
          | doctype text => rfl

theorem harmless_cons {c : Char} (plain : c ≠ '<') (rest : List Char) : harmless (c :: rest) = harmless rest := by
  cases rest with
  | nil => rfl
  | cons d others => simp [harmless,plain]

-- A character that is shown, whatever stands before the text that is expected.
theorem shown_iff {c : Char} {before rest : List Char} {later found expected : List Token}
    (ih : ∀ before,found = texts (before ++ rest) ++ expected ↔ before = [] ∧ later = expected ∧ safe) :
    .text c :: found = texts (before ++ c :: rest) ++ expected ↔ before = [] ∧ later = expected ∧ safe := by
  cases before with
  | nil => simpa [texts] using ih []
  | cons first others =>
    have moved := ih (others ++ [c])
    simp only [List.append_assoc,List.cons_append,List.nil_append] at moved
    constructor
    · intro same
      simp only [texts,List.cons_append,List.map_cons,List.cons.injEq] at same
      have none := (moved.mp same.2).1
      simp at none
    · rintro ⟨none,-⟩
      cases none

theorem tokens_plain {c : Char} (plain : c ≠ '<') (rest : List Char) : tokens (c :: rest) = .text c :: tokens rest := by
  simp [tokens,tokensFrom_cons,step_data,inData,plain]
theorem tokens_tagOpen (rest : List Char) : tokens ('<' :: rest) = tokensFrom .tagOpen rest := rfl
theorem tokens_lessThan {d : Char} (quiet : opens d = false) (rest : List Char) :
    tokens ('<' :: d :: rest) = .text '<' :: tokens (d :: rest) := by
  simp only [opens,Bool.or_eq_false_iff,beq_eq_false_iff_ne] at quiet
  obtain ⟨⟨⟨letter,slash⟩,bang⟩,question⟩ := quiet
  rw [tokens_tagOpen,tokens,tokensFrom_cons,tokensFrom_cons]
  simp [step_tagOpen,step_data,letter,slash,bang,question]

theorem step_markup {state : State} {c : Char} (quiet : (step state c).1 = []) (inside : (step state c).2.inMarkup = true) (rest : List Char) :
    startsWithText (tokensFrom state (c :: rest)) = false := by
  rw [tokensFrom_cons,quiet]
  exact inMarkup_text inside rest
-- Apart from "</" an opening takes the browser into markup at once.
theorem tokens_opening {d : Char} (opening : opens d = true) (apart : d ≠ '/') (rest : List Char) :
    startsWithText (tokens ('<' :: d :: rest)) = false := by
  have entered : (step .tagOpen d).1 = [] ∧ (step .tagOpen d).2.inMarkup = true := by
    simp only [opens,Bool.or_eq_true,beq_iff_eq,apart,or_false] at opening
    rw [step_tagOpen]
    split_ifs with letter bang question
    · exact ⟨rfl,rfl⟩
    · exact ⟨rfl,rfl⟩
    · exact ⟨rfl,rfl⟩
    · exact absurd opening (by simp [letter,bang,question])
  exact step_markup entered.1 entered.2 rest
theorem tokens_closing {e : Char} (apart : e ≠ '>') (rest : List Char) :
    startsWithText (tokens ('<' :: '/' :: e :: rest)) = false := by
  have entered : (step .endTagOpen e).1 = [] ∧ (step .endTagOpen e).2.inMarkup = true := by
    rw [step_endTagOpen]
    split_ifs
    · exact ⟨rfl,rfl⟩
    · exact ⟨rfl,rfl⟩
  exact step_markup entered.1 entered.2 rest
theorem tokens_unnamed (rest : List Char) : tokens ('<' :: '/' :: '>' :: rest) = tokens rest := by
  simp [tokens,tokensFrom_cons,step_data,step_tagOpen,step_endTagOpen,inData]

theorem texts_start {found : List Token} (markup : startsWithText found = false) (c : Char) (before : List Char) (expected : List Token) :
    found ≠ texts (c :: before) ++ expected := by
  rintro rfl
  cases markup

-- An opening in front of a tag: no text, or an end tag without a name, which leaves nothing.
theorem opening_reads {d : Char} {rest : List Char} (opening : opens d = true) (front : ∃ others,rest = '<' :: others) (text : List Char) :
    startsWithText (tokens ('<' :: d :: text ++ rest)) = false ∨ ∃ later,d = '/' ∧ text = '>' :: later := by
  by_cases slash : d = '/'
  · subst slash
    cases text with
    | nil =>
      obtain ⟨others,rfl⟩ := front
      exact .inl (tokens_closing (by decide) others)
    | cons e text =>
      by_cases unnamed : e = '>'
      · exact .inr ⟨text,rfl,congrArg (· :: text) unnamed⟩
      · exact .inl (tokens_closing unnamed (text ++ rest))
  · exact .inl (tokens_opening opening slash (text ++ rest))

-- A field in front of a tag: its characters come out as text, and nothing else changes, exactly
-- when none of them starts markup. `before` is text that is still owed.
theorem field_text {rest : List Char} (front : ∃ others,rest = '<' :: others) (markup : startsWithText (tokens rest) = false)
    (expected : List Token) (text before : List Char) :
    tokens (text ++ rest) = texts (before ++ text) ++ expected ↔ before = [] ∧ tokens rest = expected ∧ harmless text = true := by
  induction size : text.length using Nat.strongRecOn generalizing text before with
  | ind size ih =>
    subst size
    cases text with
    | nil =>
      rw [List.append_nil]
      cases before with
      | nil => simp [texts,harmless]
      | cons c before => simpa using texts_start markup c before expected
    | cons c text =>
      have shorter := fun before => ih text.length (by simp) text before rfl
      by_cases plain : c = '<'
      · subst plain
        cases text with
        | nil =>
          have shown : tokens (['<'] ++ rest) = .text '<' :: tokens rest := by
            obtain ⟨others,rfl⟩ := front
            exact tokens_lessThan rfl others
          rw [shown]
          exact shown_iff shorter
        | cons d text =>
          by_cases opening : opens d = true
          · have never : tokens ('<' :: d :: text ++ rest) ≠ texts (before ++ '<' :: d :: text) ++ expected := by
              rcases opening_reads opening front text with quiet | ⟨later,rfl,rfl⟩
              · cases before with
                | nil => exact texts_start quiet _ _ _
                | cons c before => exact texts_start quiet _ _ _
              · -- nothing is read of "</>", so its three characters are owed
                have owed := ih later.length (by simp only [List.length_cons]; omega) later (before ++ ['<','/','>']) rfl
                rw [List.append_assoc] at owed
                intro found
                have none := (owed.mp ((tokens_unnamed (later ++ rest)).symm.trans found)).1
                simp at none
            have harm : harmless ('<' :: d :: text) = false := by simp [harmless,opening]
            rw [harm]
            exact iff_of_false never fun ⟨_,_,safe⟩ => nomatch safe
          · have quiet : opens d = false := by simpa using opening
            have shown : tokens ('<' :: d :: text ++ rest) = .text '<' :: tokens (d :: text ++ rest) := tokens_lessThan quiet (text ++ rest)
            have same : harmless ('<' :: d :: text) = harmless (d :: text) := by simp [harmless,quiet]
            rw [shown,same]
            exact shown_iff shorter
      · have shown : tokens (c :: text ++ rest) = .text c :: tokens (text ++ rest) := tokens_plain plain (text ++ rest)
        rw [shown,harmless_cons plain]
        exact shown_iff shorter

theorem framed_append {first second : List Part} (one : framed first = true) (two : framed second = true) :
    framed (first ++ second) = true := by
  induction first with
  | nil => exact two
  | cons part rest ih =>
    cases part with
    | template text =>
      simp only [framed,Bool.and_eq_true] at one
      simp [framed,one.1,ih one.2]
    | field text =>
      simp only [framed,Bool.and_eq_true] at one
      cases rest with
      | nil => cases one.1
      | cons next others =>
        have front : begins (next :: others ++ second) = true := by
          cases next with
          | template text => exact one.1
          | field text => cases one.1
        rw [List.cons_append,framed,Bool.and_eq_true]
        exact ⟨front,ih one.2⟩

theorem framed_split {before after : List Part} {text : List Char} (frame : framed (before ++ .field text :: after) = true) :
    framed before = true := by
  induction before with
  | nil => rfl
  | cons part rest ih =>
    simp only [List.cons_append] at frame
    cases part with
    | template piece =>
      simp only [framed,Bool.and_eq_true] at frame ⊢
      exact ⟨frame.1,ih frame.2⟩
    | field shown =>
      simp only [framed,Bool.and_eq_true] at frame ⊢
      refine ⟨?_,ih frame.2⟩
      cases rest with
      | nil => cases frame.1
      | cons next others => cases next <;> exact frame.1
def Harmless (parts : List Part) : Prop := ∀ part ∈ parts,part.harmless = true
theorem harmless_append (first second : List Part) : Harmless (first ++ second) ↔ Harmless first ∧ Harmless second :=
  List.forall_mem_append
@[simp] theorem harmless_nil : Harmless [] := by simp [Harmless]
@[simp] theorem harmless_template (text : List Char) (rest : List Part) : Harmless (.template text :: rest) ↔ Harmless rest := by
  simp [Harmless,Part.harmless]
@[simp] theorem harmless_field (text : List Char) (rest : List Part) :
    Harmless (.field text :: rest) ↔ harmless text = true ∧ Harmless rest := by
  simp [Harmless,Part.harmless]
theorem harmless_plain {text : List Char} (plain : '<' ∉ text) : harmless text = true := by
  induction text with
  | nil => rfl
  | cons c rest ih =>
    rw [harmless_cons fun same => plain (same ▸ List.mem_cons_self)]
    exact ih fun member => plain (List.mem_cons_of_mem _ member)

-- The fields of a page come out as text exactly when all of them are harmless.
theorem onlyText_iff {parts : List Part} (frame : framed parts = true) : OnlyText parts ↔ Harmless parts := by
  induction parts with
  | nil => simp [OnlyText,page,tokens,tokensFrom,walk,finish]
  | cons part rest ih =>
    rw [OnlyText] at ih ⊢
    cases part with
    | template text =>
      simp only [framed,Bool.and_eq_true] at frame
      have whole : tokens (page (.template text :: rest)) = tokens text ++ tokens (page rest) := closed_tokens frame.1 (page rest)
      rw [whole,List.flatMap_cons,Part.meant,List.append_cancel_left_eq,ih frame.2,harmless_template]
    | field text =>
      simp only [framed,Bool.and_eq_true] at frame
      obtain ⟨front,markup⟩ := begins_page frame.1
      have shown := field_text front markup (rest.flatMap Part.meant) text []
      rw [ih frame.2] at shown
      have whole : tokens (page (.field text :: rest)) = tokens (text ++ page rest) := rfl
      simp only [List.nil_append,true_and] at shown
      rw [whole,List.flatMap_cons,Part.meant,shown,harmless_field,and_comm]

-- Text adds nothing to the markup of a page.
theorem texts_markup (chars : List Char) : (texts chars).filter Token.isMarkup = [] := by
  simp [texts,Token.isMarkup]
def template : Part → Option (List Char)
  | .template text => some text
  | .field _ => none
theorem onlyText_markup {parts : List Part} (only : OnlyText parts) : markup (page parts) = (parts.filterMap template).flatMap markup := by
  have same : ∀ parts : List Part,(parts.flatMap Part.meant).filter Token.isMarkup = (parts.filterMap template).flatMap markup := by
    intro parts
    induction parts with
    | nil => rfl
    | cons part rest ih =>
      cases part with
      | template text =>
        rw [List.flatMap_cons,List.filter_append,ih]
        rfl
      | field text =>
        rw [List.flatMap_cons,List.filter_append,ih,Part.meant,texts_markup]
        rfl
  rw [markup,only,same]

def Part.field? : Part → Option (List Char)
  | .template _ => none
  | .field text => some text
theorem page_closed {parts : List Part} (frame : framed parts = true) (plain : ∀ text ∈ parts.filterMap Part.field?,'<' ∉ text) :
    closed (page parts) = true := by
  induction parts with
  | nil => rfl
  | cons part rest ih =>
    cases part with
    | template text =>
      simp only [framed,Bool.and_eq_true] at frame
      have first : (walk .data text).2 = .data := by simpa [closed] using frame.1
      have later := ih frame.2 plain
      have next : (walk .data (page (.template text :: rest))).2 = (walk (walk .data text).2 (page rest)).2 := walk_state _ _ _
      rw [closed,beq_iff_eq] at later ⊢
      rw [next,first]
      exact later
    | field text =>
      simp only [framed,Bool.and_eq_true] at frame
      have first : (walk .data text).2 = .data := by rw [walk_plain (plain text List.mem_cons_self)]
      have later := ih frame.2 fun other member => plain other (List.mem_cons_of_mem _ member)
      have next : (walk .data (page (.field text :: rest))).2 = (walk (walk .data text).2 (page rest)).2 := walk_state _ _ _
      rw [closed,beq_iff_eq] at later ⊢
      rw [next,first]
      exact later
-- A field that is markup in itself brings it into the page.
theorem markup_inserted {before after : List Part} {text : List Char} (front : closed (page before) = true) (complete : closed text = true) :
    markup (page (before ++ .field text :: after)) = markup (page before) ++ markup text ++ markup (page after) := by
  have split : page (before ++ .field text :: after) = page before ++ (text ++ page after) := by simp [page,Part.chars]
  rw [split,markup,closed_tokens front,closed_tokens complete,List.filter_append,List.filter_append,List.append_assoc]
  rfl

end Elchi.Html

import VoltykBot.Lib.HtmlText
import VoltykBot.Lib.PyText
import VoltykBot.Lib.Run
import VoltykBot.Lib.Utf16

/-!
This module contains `html_to_entities`, which turns the HTML of a message into its text and the entities over
it. It shows on which texts it returns, and that all positions it computes lie within the text.
-/

namespace HtmlEntities

inductive EntityType where
  | bold
  | italic
  | code
  | pre
  | strikethrough
  | underline
  | spoiler
  | blockquote
  | textLink
  | customEmoji
  | dateTime
  deriving DecidableEq, Repr

def tagMap : List (List Char × EntityType) := [
  ("b".toList, .bold), ("strong".toList, .bold), ("i".toList, .italic), ("em".toList, .italic),
  ("code".toList, .code), ("pre".toList, .pre), ("s".toList, .strikethrough),
  ("strike".toList, .strikethrough), ("del".toList, .strikethrough), ("u".toList, .underline),
  ("ins".toList, .underline), ("tg-spoiler".toList, .spoiler), ("blockquote".toList, .blockquote)]

structure Entity where
  type : EntityType
  offset : Int
  length : Int
  url : Option (List Char) := none
  customEmojiId : Option (List Char) := none
  unixTime : Option Int := none
  dateTimeFormat : Option String := none
  deriving DecidableEq, Repr

structure Opened where
  tag : List Char
  entityType : EntityType
  offset : Int
  url : Option (List Char) := none
  customEmojiId : Option (List Char) := none
  deriving DecidableEq, Repr

def Opened.entity (entry : Opened) (utf16Pos : Int) : Entity where
  type := entry.entityType
  offset := entry.offset
  length := utf16Pos - entry.offset
  url := entry.url.filter (· ≠ [])
  customEmojiId := entry.customEmojiId.filter (· ≠ [])

inductive Piece where
  | tag (content : List Char)
  | reference (text : List Char)
  | char (c : Char)
  deriving DecidableEq, Repr

def cut (c : Char) (rest : List Char) : Piece × Nat :=
  if c = '<' ∧ '>' ∈ rest then
    let content := rest.takeWhile (· ≠ '>')
    (.tag content, content.length + 1)
  else if c = '&' ∧ ';' ∈ rest ∧ (rest.takeWhile (· ≠ ';')).length + 1 < 8 then
    let name := rest.takeWhile (· ≠ ';')
    (.reference (c :: name ++ [';']), name.length + 1)
  else
    (.char c, 0)

def pieces (html : List Char) : List Piece := Scanner.pieces cut html

/-! ## `html_to_entities` -/

/--
The state of the loop. The end of the stack, where it grows, is the head of the list.
-/
structure State where
  text : List Char := []
  utf16Pos : Int := 0
  stack : List Opened := []
  entities : List Entity := []
  deriving DecidableEq, Repr

def State.append (s : State) (fragment : List Char) : State :=
  { s with text := s.text ++ fragment, utf16Pos := s.utf16Pos + Utf16.len fragment }

def State.close (s : State) (tagName : List Char) : State :=
  match s.stack.find? (·.tag = tagName) with
  | some entry =>
    { s with
      entities := s.entities ++ [entry.entity s.utf16Pos]
      stack := s.stack.eraseP (·.tag = tagName) }
  | none => s

/--
The group of `\s*=\s*["']([^"']*)["']` at the start of a text.
-/
def quotedValue (text : List Char) : Option (List Char) :=
  let fromEqual := text.dropWhile PyText.isSpace
  let fromQuote := fromEqual.tail.dropWhile PyText.isSpace
  let value := fromQuote.tail.takeWhile fun c => c ≠ '"' && c ≠ '\''
  let fromEnd := fromQuote.tail.drop value.length
  if fromEqual.head? = some '=' ∧ (fromQuote.head? = some '"' ∨ fromQuote.head? = some '\'') ∧ fromEnd ≠ [] then
    some value
  else
    none

def valueHere (name text : List Char) : Option (List Char) :=
  (PyText.matchIgnoringCase name text).bind quotedValue

/--
`re.search` of an attribute, its value if there is one and an empty text otherwise.
-/
def searchValue (name tagContent : List Char) : List Char :=
  (tagContent.tails.findSome? (valueHere name)).getD []

def State.openTag (s : State) (tagContent : List Char) : State :=
  let tagName := PyText.lower (PyText.strip (tagContent.takeWhile (· ≠ ' ')))
  let push (entry : Opened) : State := { s with stack := entry :: s.stack }
  if tagName = "a".toList then
    push {
      tag := "a".toList, entityType := .textLink, offset := s.utf16Pos,
      url := some (searchValue "href".toList tagContent) }
  else if tagName = "tg-emoji".toList then
    push {
      tag := "tg-emoji".toList, entityType := .customEmoji, offset := s.utf16Pos,
      customEmojiId := some (searchValue "emoji-id".toList tagContent) }
  else
    match tagMap.lookup tagName with
    | some entityType => push { tag := tagName, entityType := entityType, offset := s.utf16Pos }
    | none => s

variable (html5 : HtmlText.NamedReferences)

/--
One round of the loop; `none` where `split()[0]` raises.
-/
def State.read (s : State) (piece : Piece) : Option State :=
  match piece with
  | .tag ('/' :: content) =>
    (PyText.firstWord (PyText.lower (PyText.strip content))).map fun tagName => s.close tagName
  | .tag content => some (s.openTag content)
  | .reference text => some (s.append (HtmlText.unescape html5 text))
  | .char c => some (s.append [c])

def htmlToEntities (html : List Char) : Option (List Char × List Entity) :=
  (Run.exec (State.read html5) {} (pieces html)).map fun s => (s.text, s.entities)

def Piece.isNameless (piece : Piece) : Bool :=
  match piece with
  | .tag ('/' :: content) => content.all PyText.isSpace
  | _ => false

def Returns (html : List Char) : Prop := ∃ text entities, htmlToEntities html5 html = some (text, entities)

variable {html5}

theorem read_isSome_iff (s : State) (piece : Piece) : (s.read html5 piece).isSome ↔ piece.isNameless = false := by
  unfold State.read Piece.isNameless
  split
  . next content =>
    rw [Option.isSome_map, PyText.firstWord_isSome_iff, PyText.forall_lower_iff, PyText.forall_strip_iff,
      ← List.all_eq_true, Bool.not_eq_true]
    exact Iff.rfl
  . next content hslash =>
    split
    . next more heq => cases heq; exact absurd rfl (hslash more)
    . exact iff_of_true rfl rfl
  . exact iff_of_true rfl rfl
  . exact iff_of_true rfl rfl

/--
It returns if and only if no closing tag it comes to is without a name.
-/
theorem returns_iff (html5 : HtmlText.NamedReferences) (html : List Char)
    : Returns html5 html ↔ ∀ piece ∈ pieces html, piece.isNameless = false := by
  rw [← Run.isSome_exec_iff read_isSome_iff {} (pieces html)]
  unfold Returns htmlToEntities
  constructor
  . rintro ⟨text, entities, h⟩
    obtain ⟨s, hs, _⟩ := Option.map_eq_some_iff.mp h
    rw [hs]
    rfl
  . intro h
    obtain ⟨s, hs⟩ := Option.isSome_iff_exists.mp h
    rw [hs]
    exact ⟨s.text, s.entities, rfl⟩

theorem not_returns_nameless : ¬ Returns HtmlText.NamedReferences.predefined "</>".toList := by
  rintro ⟨text, entities, h⟩
  have hraises : htmlToEntities HtmlText.NamedReferences.predefined "</>".toList = none := by decide
  rw [hraises] at h
  cases h

structure Entity.Within (entity : Entity) (size : Int) : Prop where
  offset_nonneg : 0 ≤ entity.offset
  length_nonneg : 0 ≤ entity.length
  le_size : entity.offset + entity.length ≤ size

structure State.InBounds (s : State) : Prop where
  counted : s.utf16Pos = Utf16.len s.text
  stack : ∀ entry ∈ s.stack, 0 ≤ entry.offset ∧ entry.offset ≤ s.utf16Pos
  entities : ∀ entity ∈ s.entities, entity.Within s.utf16Pos

theorem Entity.Within.mono {entity : Entity} {size size' : Int} (h : entity.Within size) (hle : size ≤ size')
    : entity.Within size' :=
  ⟨h.offset_nonneg, h.length_nonneg, Int.le_trans h.le_size hle⟩

theorem State.InBounds.append {s : State} (hs : s.InBounds) (fragment : List Char)
    : (s.append fragment).InBounds := by
  have hgrows : s.utf16Pos ≤ s.utf16Pos + Utf16.len fragment :=
    Int.le_add_of_nonneg_right (Utf16.len_nonneg fragment)
  constructor
  . unfold State.append
    rw [Utf16.len_append, hs.counted]
  . intro entry hentry
    exact ⟨(hs.stack entry hentry).1, Int.le_trans (hs.stack entry hentry).2 hgrows⟩
  . intro entity hentity
    exact (hs.entities entity hentity).mono hgrows

theorem State.InBounds.close {s : State} (hs : s.InBounds) (tagName : List Char)
    : (s.close tagName).InBounds := by
  unfold State.close
  split
  . next entry hfind =>
    obtain ⟨hnonneg, hle⟩ := hs.stack entry (List.mem_of_find?_eq_some hfind)
    constructor
    . exact hs.counted
    . exact fun other hother => hs.stack other (List.mem_of_mem_eraseP hother)
    . intro entity hentity
      rcases List.mem_append.mp hentity with hold | hnew
      . exact hs.entities entity hold
      . rw [List.mem_singleton.mp hnew]
        unfold Opened.entity
        constructor <;> dsimp only <;> omega
  . exact hs

theorem State.InBounds.push {s : State} (hs : s.InBounds) {entry : Opened} (hoffset : entry.offset = s.utf16Pos)
    : State.InBounds { s with stack := entry :: s.stack } := by
  refine ⟨hs.counted, ?_, hs.entities⟩
  intro other hother
  rcases List.mem_cons.mp hother with rfl | hold
  . rw [hoffset]
    exact ⟨hs.counted ▸ Utf16.len_nonneg s.text, Int.le_refl _⟩
  . exact hs.stack other hold

theorem State.InBounds.openTag {s : State} (hs : s.InBounds) (tagContent : List Char)
    : (s.openTag tagContent).InBounds := by
  unfold State.openTag
  dsimp only
  split
  . exact hs.push rfl
  . split
    . exact hs.push rfl
    . split
      . exact hs.push rfl
      . exact hs

theorem State.InBounds.read {s s' : State} {piece : Piece} (hs : s.InBounds)
    (h : s.read html5 piece = some s') : s'.InBounds := by
  unfold State.read at h
  split at h
  . obtain ⟨tagName, _, rfl⟩ := Option.map_eq_some_iff.mp h
    exact hs.close tagName
  . cases h
    exact hs.openTag _
  . cases h
    exact hs.append _
  . cases h
    exact hs.append _

theorem within_of_htmlToEntities {html text : List Char} {entities : List Entity}
    (h : htmlToEntities html5 html = some (text, entities))
    : ∀ entity ∈ entities, entity.Within (Utf16.len text) := by
  obtain ⟨s, hrun, hs⟩ := Option.map_eq_some_iff.mp h
  cases hs
  have hinit : State.InBounds {} :=
    ⟨rfl, fun _ h => absurd h List.not_mem_nil, fun _ h => absurd h List.not_mem_nil⟩
  have hbounds := Run.invariant' (I := State.InBounds) State.InBounds.read hinit hrun
  exact hbounds.counted ▸ hbounds.entities

end HtmlEntities

import VoltykBot.Utils.HtmlEntities

/-!
This module contains the rendering of formatted texts as HTML, and shows that `html_to_entities` reads from it
the text and the formats again.
-/

namespace HtmlEntities

structure Url where
  text : List Char
  ne_nil : text ≠ []
  plain : ∀ c ∈ text, c ∉ ['"', '\'', '&', '<', '>']

structure EmojiId where
  text : List Char
  ne_nil : text ≠ []
  digits : ∀ c ∈ text, PyText.isDigit c = true

inductive Element where
  | formatted (tag : List Char) (type : EntityType) (mem : (tag, type) ∈ tagMap)
  | link (url : Url)
  | emoji (id : EmojiId)

def Element.tag : Element → List Char
  | formatted tag _ _ => tag
  | link _ => "a".toList
  | emoji _ => "tg-emoji".toList

def Element.attributes : Element → List Char
  | formatted _ _ _ => []
  | link url => " href=\"".toList ++ url.text ++ "\"".toList
  | emoji id => " emoji-id=\"".toList ++ id.text ++ "\"".toList

def Element.opened (element : Element) (offset : Int) : Opened :=
  match element with
  | formatted tag type _ => { tag := tag, entityType := type, offset := offset }
  | link url => { tag := "a".toList, entityType := .textLink, offset := offset, url := some url.text }
  | emoji id =>
    { tag := "tg-emoji".toList, entityType := .customEmoji, offset := offset, customEmojiId := some id.text }

def Element.entity (element : Element) (offset length : Int) : Entity :=
  match element with
  | formatted _ type _ => { type := type, offset := offset, length := length }
  | link url => { type := .textLink, offset := offset, length := length, url := some url.text }
  | emoji id => { type := .customEmoji, offset := offset, length := length, customEmojiId := some id.text }

/--
An ordered forest: texts and elements one behind the other, each element over a forest of its own.
-/
inductive Forest where
  | nil
  | text (leaf : List Char) (rest : Forest)
  | element (root : Element) (children rest : Forest)

namespace Forest

def render : Forest → List Char
  | nil => []
  | text leaf rest => HtmlText.escape leaf ++ rest.render
  | element root children rest =>
    '<' :: (root.tag ++ root.attributes ++ '>' :: (children.render ++
      '<' :: ('/' :: root.tag ++ '>' :: rest.render)))

def plain : Forest → List Char
  | nil => []
  | text leaf rest => leaf ++ rest.plain
  | element _ children rest => children.plain ++ rest.plain

/--
The entities of a forest behind the text `before`, in the order in which the elements end.
-/
def entities (before : List Char) : Forest → List Entity
  | nil => []
  | text leaf rest => rest.entities (before ++ leaf)
  | element root children rest =>
    children.entities before ++ root.entity (Utf16.len before) (Utf16.len children.plain) ::
      rest.entities (before ++ children.plain)

end Forest

theorem pieces_tag {content rest : List Char} (h : '>' ∉ content)
    : pieces ('<' :: (content ++ '>' :: rest)) = .tag content :: pieces rest := by
  have hcut : cut '<' ((content ++ ['>']) ++ rest) = (.tag content, (content ++ ['>']).length) := by
    unfold cut
    rw [List.append_assoc, List.singleton_append, if_pos ⟨rfl, by simp⟩, PyText.takeWhile_ne h, List.length_append,
      List.length_singleton]
  have hpieces := Scanner.pieces_cons hcut
  rw [List.cons_append, List.append_assoc, List.singleton_append] at hpieces
  exact hpieces

theorem pieces_reference {name rest : List Char} (h : ';' ∉ name) (hlength : name.length + 1 < 8)
    : pieces ('&' :: (name ++ ';' :: rest)) = .reference ('&' :: name ++ [';']) :: pieces rest := by
  have hcut : cut '&' ((name ++ [';']) ++ rest) = (.reference ('&' :: name ++ [';']), (name ++ [';']).length) := by
    unfold cut
    rw [List.append_assoc, List.singleton_append, PyText.takeWhile_ne h,
      if_neg (fun h => absurd h.1 (by decide)), if_pos ⟨rfl, by simp, hlength⟩, List.length_append,
      List.length_singleton]
  have hpieces := Scanner.pieces_cons hcut
  rw [List.cons_append, List.append_assoc, List.singleton_append] at hpieces
  exact hpieces

theorem pieces_char {c : Char} {rest : List Char} (hlt : c ≠ '<') (hamp : c ≠ '&')
    : pieces (c :: rest) = .char c :: pieces rest := by
  have hcut : cut c ([] ++ rest) = (.char c, ([] : List Char).length) := by
    unfold cut
    rw [if_neg (fun h => hlt h.1), if_neg (fun h => hamp h.1)]
    rfl
  exact Scanner.pieces_cons hcut

variable {html5 : HtmlText.NamedReferences}

theorem append_append (s : State) (fragment fragment' : List Char)
    : (s.append fragment).append fragment' = s.append (fragment ++ fragment') := by
  unfold State.append
  rw [Utf16.len_append, List.append_assoc, Int.add_assoc]

theorem exec_escapeChar (s : State) (c : Char) (rest : List Char)
    : Run.exec (State.read html5) s (pieces (HtmlText.escapeChar c ++ rest))
        =
      Run.exec (State.read html5) (s.append [c]) (pieces rest) := by
  rcases HtmlText.escapeChar_cases c with ⟨hself, hlt, hamp⟩ | ⟨name, hname, hsemicolon, hlength⟩
  . rw [hself, List.singleton_append, pieces_char hlt hamp]
    rfl
  . have hchar : HtmlText.unescape html5 ('&' :: (name ++ [';'])) = [c] :=
      HtmlText.unescape_escapeChar hname (by simp)
    rw [hname, List.cons_append, List.append_assoc, List.singleton_append, pieces_reference hsemicolon hlength,
      ← hchar]
    rfl

theorem exec_escape (s : State) (leaf rest : List Char)
    : Run.exec (State.read html5) s (pieces (HtmlText.escape leaf ++ rest))
        =
      Run.exec (State.read html5) (s.append leaf) (pieces rest) := by
  unfold HtmlText.escape
  induction leaf generalizing s with
  | nil =>
    have hnothing : s.append [] = s := by
      unfold State.append
      rw [Utf16.len_nil, Int.add_zero, List.append_nil]
    rw [hnothing]
    rfl
  | cons c leaf ih =>
    rw [List.flatMap_cons, List.append_assoc, exec_escapeChar, ih, append_append, List.singleton_append]

structure IsTagName (tag : List Char) : Prop where
  ne_nil : tag ≠ []
  no_bracket : '>' ∉ tag
  no_space : ' ' ∉ tag
  no_slash : tag.head? ≠ some '/'
  opens : PyText.lower (PyText.strip tag) = tag
  closes : PyText.firstWord (PyText.lower (PyText.strip tag)) = some tag

theorem Element.isTagName (element : Element) : IsTagName element.tag := by
  have hnames : ∀ entry ∈ tagMap, IsTagName entry.1 := by
    intro entry hentry
    have hall : ∀ entry ∈ tagMap, entry.1 ≠ [] ∧ '>' ∉ entry.1 ∧ ' ' ∉ entry.1 ∧ entry.1.head? ≠ some '/' ∧
        PyText.lower (PyText.strip entry.1) = entry.1 ∧
        PyText.firstWord (PyText.lower (PyText.strip entry.1)) = some entry.1 := by
      decide
    obtain ⟨hne, hbracket, hspace, hslash, hopens, hcloses⟩ := hall entry hentry
    exact ⟨hne, hbracket, hspace, hslash, hopens, hcloses⟩
  have hlink : IsTagName "a".toList := by
    constructor <;> decide
  have hemoji : IsTagName "tg-emoji".toList := by
    constructor <;> decide
  cases element with
  | formatted tag type mem => exact hnames (tag, type) mem
  | link url => exact hlink
  | emoji id => exact hemoji

theorem quotedValue_quoted {value rest : List Char} (hquotes : ∀ c ∈ value, c ≠ '"' ∧ c ≠ '\'')
    : quotedValue ('=' :: '"' :: (value ++ '"' :: rest)) = some value := by
  have hvalue : (value ++ '"' :: rest).takeWhile (fun c => c ≠ '"' && c ≠ '\'') = value := by
    rw [List.takeWhile_append_of_pos, List.takeWhile_cons_of_neg (by decide), List.append_nil]
    intro c hc
    rw [Bool.and_eq_true, decide_eq_true_eq, decide_eq_true_eq]
    exact hquotes c hc
  unfold quotedValue
  dsimp only
  rw [List.dropWhile_cons_of_neg (by decide), List.tail_cons, List.dropWhile_cons_of_neg (by decide),
    List.tail_cons, hvalue, List.drop_left]
  exact if_pos ⟨rfl, Or.inl rfl, List.cons_ne_nil _ _⟩

theorem searchValue_skip {name rest : List Char} {c : Char} (h : valueHere name (c :: rest) = none)
    : searchValue name (c :: rest) = searchValue name rest := by
  unfold searchValue
  rw [List.tails, List.findSome?_cons, h]

theorem searchValue_here {name text value : List Char} (h : valueHere name text = some value)
    : searchValue name text = value := by
  unfold searchValue
  cases text with
  | nil =>
    rw [List.tails, List.findSome?_cons, h]
    rfl
  | cons c text =>
    rw [List.tails, List.findSome?_cons, h]
    rfl

theorem searchValue_link (url : Url)
    : searchValue "href".toList ((Element.link url).tag ++ (Element.link url).attributes) = url.text := by
  change searchValue "href".toList ('a' :: ' ' :: ("href=\"".toList ++ url.text ++ "\"".toList)) = url.text
  rw [searchValue_skip rfl, searchValue_skip rfl]
  apply searchValue_here
  apply quotedValue_quoted
  intro c hc
  have hplain := url.plain c hc
  constructor
  . rintro rfl
    exact absurd hplain (by decide)
  . rintro rfl
    exact absurd hplain (by decide)

theorem searchValue_emoji (id : EmojiId)
    : searchValue "emoji-id".toList ((Element.emoji id).tag ++ (Element.emoji id).attributes) = id.text := by
  change searchValue "emoji-id".toList
    ('t' :: 'g' :: '-' :: 'e' :: 'm' :: 'o' :: 'j' :: 'i' :: ' ' ::
      ("emoji-id=\"".toList ++ id.text ++ "\"".toList)) = id.text
  iterate 9 rw [searchValue_skip rfl]
  apply searchValue_here
  apply quotedValue_quoted
  intro c hc
  have hdigit := id.digits c hc
  constructor
  . rintro rfl
    exact absurd hdigit (by decide)
  . rintro rfl
    exact absurd hdigit (by decide)

theorem openTag_element (s : State) (element : Element)
    : s.openTag (element.tag ++ element.attributes)
        =
      { s with stack := element.opened s.utf16Pos :: s.stack } := by
  unfold State.openTag
  cases element with
  | formatted tag type mem =>
    have hname := (Element.formatted tag type mem).isTagName
    have htag : tag.takeWhile (· ≠ ' ') = tag := by
      rw [List.takeWhile_eq_self_iff]
      exact fun c hc => decide_eq_true (ne_of_mem_of_not_mem hc hname.no_space)
    have hall : ∀ entry ∈ tagMap, entry.1 ≠ "a".toList ∧ entry.1 ≠ "tg-emoji".toList ∧
        tagMap.lookup entry.1 = some entry.2 := by
      decide
    obtain ⟨hlink, hemoji, hlookup⟩ := hall (tag, type) mem
    have hopens := hname.opens
    dsimp only [Element.tag, Element.attributes] at hopens hlink hemoji hlookup ⊢
    rw [List.append_nil, htag, hopens, if_neg hlink, if_neg hemoji, hlookup]
    rfl
  | link url =>
    rw [searchValue_link]
    rfl
  | emoji id =>
    rw [searchValue_emoji]
    rfl

theorem read_openTag (s : State) (element : Element)
    : s.read html5 (.tag (element.tag ++ element.attributes))
        =
      some { s with stack := element.opened s.utf16Pos :: s.stack } := by
  rw [← openTag_element]
  have hslash : (element.tag ++ element.attributes).head? ≠ some '/' := by
    rw [List.head?_append_of_ne_nil _ element.isTagName.ne_nil]
    exact element.isTagName.no_slash
  unfold State.read
  split
  . next heq =>
    rw [Piece.tag.inj heq] at hslash
    exact absurd rfl hslash
  . next heq => rw [Piece.tag.inj heq]
  . next heq => exact absurd heq Piece.noConfusion
  . next heq => exact absurd heq Piece.noConfusion

theorem no_bracket_of_quoted {name value : List Char} (hname : '>' ∉ name) (hvalue : '>' ∉ value)
    : '>' ∉ name ++ value ++ "\"".toList := by
  rw [List.mem_append, List.mem_append]
  rintro ((h | h) | h)
  . exact hname h
  . exact hvalue h
  . exact absurd h (by decide)

theorem no_bracket (element : Element) : '>' ∉ element.tag ++ element.attributes := by
  rw [List.mem_append]
  rintro (htag | hattributes)
  . exact element.isTagName.no_bracket htag
  . revert hattributes
    cases element with
    | formatted tag type mem => exact List.not_mem_nil
    | link url => exact no_bracket_of_quoted (by decide) fun h => absurd (url.plain '>' h) (by decide)
    | emoji id => exact no_bracket_of_quoted (by decide) fun h => absurd (id.digits '>' h) (by decide)

theorem opened_entity (element : Element) (offset utf16Pos : Int)
    : (element.opened offset).entity utf16Pos = element.entity offset (utf16Pos - offset) := by
  cases element with
  | formatted tag type mem => rfl
  | link url =>
    unfold Element.opened Opened.entity Element.entity
    simp [Option.filter, url.ne_nil]
  | emoji id =>
    unfold Element.opened Opened.entity Element.entity
    simp [Option.filter, id.ne_nil]

theorem opened_tag (element : Element) (offset : Int) : (element.opened offset).tag = element.tag := by
  cases element with
  | formatted tag type mem => rfl
  | link url => rfl
  | emoji id => rfl

theorem read_close (s : State) (content : List Char)
    : s.read html5 (.tag ('/' :: content))
        =
      (PyText.firstWord (PyText.lower (PyText.strip content))).map fun tagName => s.close tagName := rfl

theorem read_closeTag {s : State} {element : Element} {offset : Int} {stack : List Opened}
    (hstack : s.stack = element.opened offset :: stack)
    : s.read html5 (.tag ('/' :: element.tag))
        =
      some { s with
        entities := s.entities ++ [element.entity offset (s.utf16Pos - offset)]
        stack := stack } := by
  let isOpen (entry : Opened) : Bool := entry.tag = element.tag
  have htop : isOpen (element.opened offset) = true := decide_eq_true (opened_tag element offset)
  rw [read_close, element.isTagName.closes, Option.map_some]
  unfold State.close
  rw [hstack, List.find?_cons_of_pos (p := isOpen) htop]
  dsimp only
  rw [List.eraseP_cons_of_pos (p := isOpen) htop, opened_entity]

def State.after (s : State) (forest : Forest) : State :=
  { s with
    text := s.text ++ forest.plain
    utf16Pos := s.utf16Pos + Utf16.len forest.plain
    entities := s.entities ++ forest.entities s.text }

theorem exec_render (forest : Forest) {s : State} (hcounted : s.utf16Pos = Utf16.len s.text) (rest : List Char)
    : Run.exec (State.read html5) s (pieces (forest.render ++ rest))
        =
      Run.exec (State.read html5) (s.after forest) (pieces rest) := by
  induction forest generalizing s rest with
  | nil =>
    have hnothing : s.after .nil = s := by
      unfold State.after Forest.plain Forest.entities
      rw [Utf16.len_nil, Int.add_zero, List.append_nil, List.append_nil]
    rw [hnothing]
    rfl
  | text leaf forest ih =>
    have hcounted' : (s.append leaf).utf16Pos = Utf16.len (s.append leaf).text := by
      unfold State.append
      rw [hcounted, Utf16.len_append]
    have hafter : (s.append leaf).after forest = s.after (.text leaf forest) := by
      unfold State.after State.append
      simp only [Forest.plain, Forest.entities, Utf16.len_append, List.append_assoc, Int.add_assoc]
    rw [Forest.render, List.append_assoc, exec_escape, ih hcounted', hafter]
  | element root children forest ihc ih =>
    let opened : State := { s with stack := root.opened s.utf16Pos :: s.stack }
    let inner : State := opened.after children
    let closed : State :=
      { inner with
        entities := inner.entities ++ [root.entity s.utf16Pos (inner.utf16Pos - s.utf16Pos)]
        stack := s.stack }
    have hopened : opened.utf16Pos = Utf16.len opened.text := hcounted
    have hinner : inner.utf16Pos = Utf16.len inner.text := by
      change opened.utf16Pos + Utf16.len children.plain = Utf16.len (opened.text ++ children.plain)
      rw [Utf16.len_append, hopened]
    have hclosed : closed.utf16Pos = Utf16.len closed.text := hinner
    have hafter : closed.after forest = s.after (.element root children forest) := by
      have hlength : Utf16.len s.text + Utf16.len children.plain - Utf16.len s.text =
          Utf16.len children.plain := by
        omega
      simp only [closed, inner, opened, State.after, Forest.plain, Forest.entities, Utf16.len_append,
        List.append_assoc, Int.add_assoc, hlength, hcounted, List.singleton_append]
    have hslash : '>' ∉ '/' :: root.tag := by
      rw [List.mem_cons]
      rintro (h | h)
      . cases h
      . exact root.isTagName.no_bracket h
    have hparts : (Forest.element root children forest).render ++ rest =
        '<' :: (root.tag ++ root.attributes ++
          '>' :: (children.render ++ '<' :: ('/' :: root.tag ++ '>' :: (forest.render ++ rest)))) := by
      simp only [Forest.render, List.append_assoc, List.cons_append]
    calc Run.exec (State.read html5) s (pieces ((Forest.element root children forest).render ++ rest))
      _ = Run.exec (State.read html5) opened
            (pieces (children.render ++ '<' :: ('/' :: root.tag ++ '>' :: (forest.render ++ rest)))) := by
          rw [hparts, pieces_tag (no_bracket root), Run.exec_cons, read_openTag, Option.bind_some]
      _ = Run.exec (State.read html5) inner
            (pieces ('<' :: ('/' :: root.tag ++ '>' :: (forest.render ++ rest)))) :=
          ihc hopened _
      _ = Run.exec (State.read html5) closed (pieces (forest.render ++ rest)) := by
          rw [pieces_tag hslash, Run.exec_cons, read_closeTag rfl, Option.bind_some]
      _ = Run.exec (State.read html5) (s.after (.element root children forest)) (pieces rest) := by
          rw [ih hclosed, hafter]

/--
What is read from a rendering is its text and one entity for each element.
-/
theorem htmlToEntities_render (html5 : HtmlText.NamedReferences) (forest : Forest)
    : htmlToEntities html5 forest.render = some (forest.plain, forest.entities []) := by
  have hinit : ({} : State).utf16Pos = Utf16.len ({} : State).text := rfl
  have hrun : Run.exec (State.read html5) {} (pieces (forest.render ++ [])) = _ := exec_render forest hinit []
  rw [List.append_nil] at hrun
  unfold htmlToEntities
  rw [hrun]
  unfold State.after
  rw [List.nil_append, List.nil_append]
  rfl

end HtmlEntities

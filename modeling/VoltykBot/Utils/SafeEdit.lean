import VoltykBot.Utils.HtmlRender

/-!
This module contains `safe_edit_text`, which tries an edit again without the custom emoji, and shows that the second
text reads as the first one does but for them.
-/

open HtmlEntities

namespace SafeEdit

def emojiTag : List Char := "tg-emoji".toList

def emojiEnd : List Char := "</tg-emoji>".toList

/--
A match of `_TG_EMOJI_RE` behind its first character: the group, and how many characters it takes.
-/
def tgEmoji (rest : List Char) : Option (List Char × Nat) :=
  let fromBracket := (rest.drop emojiTag.length).dropWhile (· ≠ '>')
  let content := fromBracket.tail.takeWhile (· ≠ '<')
  let fromEnd := fromBracket.tail.dropWhile (· ≠ '<')
  if emojiTag <+: rest ∧ fromBracket ≠ [] ∧ emojiEnd <+: fromEnd then
    some (content, rest.length - (fromEnd.drop emojiEnd.length).length)
  else
    none

def cutEmoji (c : Char) (rest : List Char) : List Char × Nat :=
  match if c = '<' then tgEmoji rest else none with
  | some found => found
  | none => ([c], 0)

/--
`_TG_EMOJI_RE.sub(r'\1', text)`
-/
def clean (text : List Char) : List Char := (Scanner.pieces cutEmoji text).flatten

/-! ## `safe_edit_text` -/

/--
What comes of a call of `edit_text`. `raised` is any error besides those that are expected.
-/
inductive Outcome where
  | edited
  | notModified
  | refused
  | raised
  deriving DecidableEq, Repr

def Outcome.result : Outcome → Option Bool
  | edited => some true
  | notModified => some true
  | refused => some false
  | raised => none

def safeEditText (isMessage : Bool) (text : List Char) (first second : Outcome)
    : List (List Char) × Option Bool :=
  if isMessage then
    match first with
    | .refused => if clean text ≠ text then ([text, clean text], second.result) else ([text], some false)
    | first => ([text], first.result)
  else
    ([], some false)

theorem clean_cons {c : Char} {more rest piece : List Char} (hcut : cutEmoji c (more ++ rest) = (piece, more.length))
    : clean (c :: more ++ rest) = piece ++ clean rest := by
  unfold clean
  rw [Scanner.pieces_cons hcut, List.flatten_cons]

theorem clean_nil : clean [] = [] := rfl

theorem clean_char {c : Char} {rest : List Char} (hcut : cutEmoji c rest = ([c], 0))
    : clean (c :: rest) = c :: clean rest := by
  have hrest : clean (c :: [] ++ rest) = [c] ++ clean rest := clean_cons hcut
  exact hrest

theorem clean_text {text : List Char} (htext : '<' ∉ text) (rest : List Char)
    : clean (text ++ rest) = text ++ clean rest := by
  induction text with
  | nil => rfl
  | cons c text ih =>
    rw [List.mem_cons, not_or] at htext
    have hcut : cutEmoji c (text ++ rest) = ([c], 0) := by
      unfold cutEmoji
      rw [if_neg (Ne.symm htext.1)]
    rw [List.cons_append, clean_char hcut, ih htext.2, List.cons_append]

theorem clean_bracket {rest : List Char} (h : tgEmoji rest = none) : clean ('<' :: rest) = '<' :: clean rest := by
  apply clean_char
  unfold cutEmoji
  rw [if_pos rfl, h]

theorem tgEmoji_of_not_prefix {rest : List Char} (h : ¬ emojiTag <+: rest) : tgEmoji rest = none := by
  unfold tgEmoji
  dsimp only
  rw [if_neg fun hmatch => h hmatch.1]

theorem dropWhile_bracket {attributes rest : List Char} (h : '>' ∉ attributes)
    : ((emojiTag ++ attributes ++ '>' :: rest).drop emojiTag.length).dropWhile (· ≠ '>') = '>' :: rest := by
  rw [List.append_assoc, List.drop_left]
  exact PyText.dropWhile_ne h

theorem dropWhile_content {content : List Char} (hcontent : '<' ∉ content) (rest : List Char)
    : (content ++ (emojiEnd ++ rest)).dropWhile (· ≠ '<') = emojiEnd ++ rest := PyText.dropWhile_ne hcontent

theorem takeWhile_content {content : List Char} (hcontent : '<' ∉ content) (rest : List Char)
    : (content ++ (emojiEnd ++ rest)).takeWhile (· ≠ '<') = content := PyText.takeWhile_ne hcontent

theorem tgEmoji_emoji {attributes content : List Char} (hattributes : '>' ∉ attributes) (hcontent : '<' ∉ content)
    (rest : List Char)
    : tgEmoji (emojiTag ++ attributes ++ '>' :: (content ++ (emojiEnd ++ rest))) =
        some (content, (emojiTag ++ attributes ++ '>' :: (content ++ emojiEnd)).length) := by
  have hbegins : emojiTag <+: emojiTag ++ attributes ++ '>' :: (content ++ (emojiEnd ++ rest)) := by
    rw [List.append_assoc]
    exact List.prefix_append _ _
  have hlength : (emojiTag ++ attributes ++ '>' :: (content ++ (emojiEnd ++ rest))).length - rest.length =
      (emojiTag ++ attributes ++ '>' :: (content ++ emojiEnd)).length := by
    simp only [List.length_append, List.length_cons]
    omega
  unfold tgEmoji
  dsimp only
  rw [dropWhile_bracket hattributes, List.tail_cons, takeWhile_content hcontent, dropWhile_content hcontent,
    List.drop_left, hlength]
  exact if_pos ⟨hbegins, List.cons_ne_nil _ _, List.prefix_append _ _⟩

theorem clean_emoji {attributes content : List Char} (hattributes : '>' ∉ attributes) (hcontent : '<' ∉ content)
    (rest : List Char)
    : clean ('<' :: (emojiTag ++ attributes ++ '>' :: (content ++ (emojiEnd ++ rest)))) = content ++ clean rest := by
  have hparts : '<' :: (emojiTag ++ attributes ++ '>' :: (content ++ (emojiEnd ++ rest))) =
      '<' :: (emojiTag ++ attributes ++ '>' :: (content ++ emojiEnd)) ++ rest := by
    simp only [List.append_assoc, List.cons_append]
  rw [hparts]
  apply clean_cons
  have htail : emojiTag ++ attributes ++ '>' :: (content ++ emojiEnd) ++ rest =
      emojiTag ++ attributes ++ '>' :: (content ++ (emojiEnd ++ rest)) := by
    simp only [List.append_assoc, List.cons_append]
  unfold cutEmoji
  rw [if_pos rfl, htail, tgEmoji_emoji hattributes hcontent]

def onlyTexts : Forest → Bool
  | .nil => true
  | .text _ rest => onlyTexts rest
  | .element _ _ _ => false

def append : Forest → Forest → Forest
  | .nil, behind => behind
  | .text leaf rest, behind => .text leaf (append rest behind)
  | .element root children rest, behind => .element root children (append rest behind)

def isEmoji : Element → Bool
  | .emoji _ => true
  | _ => false

/--
Each custom emoji over nothing but text is replaced by the text.
-/
def unwrap : Forest → Forest
  | .nil => .nil
  | .text leaf rest => .text leaf (unwrap rest)
  | .element root children rest =>
    if isEmoji root ∧ onlyTexts children then
      append children (unwrap rest)
    else
      .element root (unwrap children) (unwrap rest)

def EmojiOverTexts : Forest → Prop
  | .nil => True
  | .text _ rest => EmojiOverTexts rest
  | .element root children rest =>
    (isEmoji root → onlyTexts children) ∧ EmojiOverTexts children ∧ EmojiOverTexts rest

theorem render_append (forest behind : Forest) : (append forest behind).render = forest.render ++ behind.render := by
  induction forest with
  | nil => rfl
  | text leaf rest ih => simp only [append, Forest.render, ih, List.append_assoc]
  | element root children rest ihc ih => simp only [append, Forest.render, ih, List.append_assoc, List.cons_append]

theorem plain_append (forest behind : Forest) : (append forest behind).plain = forest.plain ++ behind.plain := by
  induction forest with
  | nil => rfl
  | text leaf rest ih => simp only [append, Forest.plain, ih, List.append_assoc]
  | element root children rest ihc ih => simp only [append, Forest.plain, ih, List.append_assoc]

theorem entities_append_texts {forest : Forest} (htexts : onlyTexts forest = true) (behind : Forest)
    (before : List Char) : (append forest behind).entities before = behind.entities (before ++ forest.plain) := by
  induction forest generalizing before with
  | nil => rw [append, Forest.plain, List.append_nil]
  | text leaf rest ih => rw [append, Forest.entities, ih htexts, Forest.plain, List.append_assoc]
  | element root children rest ihc ih => exact absurd htexts Bool.false_ne_true

theorem entities_texts {forest : Forest} (htexts : onlyTexts forest = true) (before : List Char)
    : forest.entities before = [] := by
  induction forest generalizing before with
  | nil => rfl
  | text leaf rest ih => exact ih htexts (before ++ leaf)
  | element root children rest ihc ih => exact absurd htexts Bool.false_ne_true

theorem plain_unwrap (forest : Forest) : (unwrap forest).plain = forest.plain := by
  induction forest with
  | nil => rfl
  | text leaf rest ih => rw [unwrap, Forest.plain, ih, Forest.plain]
  | element root children rest ihc ih =>
    unfold unwrap
    split
    . rw [plain_append, ih, Forest.plain]
    . rw [Forest.plain, ihc, ih, Forest.plain]

theorem type_entity (root : Element) (offset length : Int)
    : (root.entity offset length).type ≠ .customEmoji ↔ isEmoji root = false := by
  cases root with
  | formatted tag type mem =>
    have hall : ∀ entry ∈ tagMap, entry.2 ≠ .customEmoji := by decide
    exact iff_of_true (hall (tag, type) mem) rfl
  | link url => exact iff_of_true nofun rfl
  | emoji id => exact iff_of_false (absurd rfl) nofun

theorem entities_unwrap {forest : Forest} (hemoji : EmojiOverTexts forest) (before : List Char)
    : (unwrap forest).entities before = (forest.entities before).filter fun entity => entity.type ≠ .customEmoji := by
  induction forest generalizing before with
  | nil => rfl
  | text leaf rest ih => exact ih hemoji (before ++ leaf)
  | element root children rest ihc ih =>
    rcases hemoji with ⟨hroot, hchildren, hrest⟩
    have htype := type_entity root (Utf16.len before) (Utf16.len children.plain)
    unfold unwrap
    split
    . next hunwrapped =>
      have hgone : ¬ (root.entity (Utf16.len before) (Utf16.len children.plain)).type ≠ .customEmoji := by
        rw [htype, hunwrapped.1]
        exact Bool.noConfusion
      rw [entities_append_texts hunwrapped.2, ih hrest, Forest.entities, entities_texts hunwrapped.2, List.nil_append,
        List.filter_cons_of_neg (by rwa [decide_eq_true_iff])]
    . next hkept =>
      have hother : isEmoji root = false := by
        rw [Bool.eq_false_iff]
        exact fun h => hkept ⟨h, hroot h⟩
      rw [Forest.entities, ihc hchildren, ih hrest, plain_unwrap, Forest.entities, List.filter_append,
        List.filter_cons_of_pos (by rw [decide_eq_true_iff]; exact htype.mpr hother)]

theorem no_bracket_escape (leaf : List Char) : '<' ∉ HtmlText.escape leaf := by
  unfold HtmlText.escape
  rw [List.mem_flatMap]
  rintro ⟨c, _, hmem⟩
  unfold HtmlText.escapeChar at hmem
  split at hmem
  all_goals revert hmem
  case h_6 hamp hlt _ _ _ =>
    rw [List.mem_singleton]
    exact fun heq => hlt heq.symm
  all_goals decide

theorem no_bracket_texts {forest : Forest} (htexts : onlyTexts forest = true) : '<' ∉ forest.render := by
  induction forest with
  | nil => exact List.not_mem_nil
  | text leaf rest ih =>
    rw [Forest.render, List.mem_append, not_or]
    exact ⟨no_bracket_escape leaf, ih htexts⟩
  | element root children rest ihc ih => exact absurd htexts Bool.false_ne_true

theorem no_bracket_tag (root : Element) : '<' ∉ root.tag := by
  have hall : ∀ entry ∈ tagMap, '<' ∉ entry.1 := by decide
  cases root with
  | formatted tag type mem => exact hall (tag, type) mem
  | link url => exact (by decide : '<' ∉ "a".toList)
  | emoji id => exact (by decide : '<' ∉ "tg-emoji".toList)

theorem no_bracket_quoted {name value : List Char} (hname : '<' ∉ name) (hvalue : '<' ∉ value)
    : '<' ∉ name ++ value ++ "\"".toList := by
  rw [List.mem_append, List.mem_append]
  rintro ((h | h) | h)
  . exact hname h
  . exact hvalue h
  . exact absurd h (by decide)

theorem no_bracket_attributes (root : Element) : '<' ∉ root.attributes := by
  cases root with
  | formatted tag type mem => exact List.not_mem_nil
  | link url => exact no_bracket_quoted (by decide) fun h => absurd (url.plain '<' h) (by decide)
  | emoji id => exact no_bracket_quoted (by decide) fun h => absurd (id.digits '<' h) (by decide)

theorem not_prefix_of_not_emoji {root : Element} (hroot : isEmoji root = false) (more : List Char)
    : ¬ emojiTag <+: root.tag ++ root.attributes ++ '>' :: more := by
  have hall : ∀ entry ∈ tagMap, ¬ emojiTag <+: entry.1 ∧ ¬ entry.1 <+: emojiTag := by decide
  have htag : ¬ emojiTag <+: root.tag ∧ ¬ root.tag <+: emojiTag := by
    cases root with
    | formatted tag type mem => exact hall (tag, type) mem
    | link url => exact (by decide : ¬ emojiTag <+: "a".toList ∧ ¬ "a".toList <+: emojiTag)
    | emoji id => exact absurd hroot nofun
  intro hbegins
  rw [List.append_assoc] at hbegins
  rcases List.prefix_or_prefix_of_prefix hbegins (List.prefix_append _ _) with h | h
  . exact htag.1 h
  . exact htag.2 h

theorem render_of_not_texts {forest : Forest} (h : onlyTexts forest = false)
    : ∃ texts more c, '<' ∉ texts ∧ c ≠ '/' ∧ forest.render = texts ++ '<' :: c :: more := by
  induction forest with
  | nil => exact absurd h nofun
  | text leaf rest ih =>
    rcases ih h with ⟨texts, more, c, htexts, hslash, hrender⟩
    refine ⟨HtmlText.escape leaf ++ texts, more, c, ?_, hslash, ?_⟩
    . rw [List.mem_append, not_or]
      exact ⟨no_bracket_escape leaf, htexts⟩
    . rw [Forest.render, hrender, List.append_assoc]
  | element root children rest ihc ih =>
    have hname := root.isTagName
    cases htag : root.tag with
    | nil => exact absurd htag hname.ne_nil
    | cons c tag =>
      refine ⟨[], _, c, List.not_mem_nil, ?_, by rw [Forest.render, htag]; rfl⟩
      intro hslash
      apply hname.no_slash
      rw [htag, hslash]
      rfl

theorem tag_of_isEmoji {root : Element} (hroot : isEmoji root = true) : root.tag = emojiTag := by
  cases root with
  | emoji id => rfl
  | formatted tag type mem => exact absurd hroot Bool.false_ne_true
  | link url => exact absurd hroot Bool.false_ne_true

theorem no_end_attributes (root : Element) : '>' ∉ root.attributes := fun h =>
  no_bracket root (List.mem_append_right _ h)

theorem tgEmoji_of_not_texts {root : Element} {children : Forest} (hroot : isEmoji root = true)
    (hchildren : onlyTexts children = false) (more : List Char)
    : tgEmoji (root.tag ++ root.attributes ++ '>' :: (children.render ++ more)) = none := by
  rcases render_of_not_texts hchildren with ⟨texts, behind, c, htexts, hslash, hrender⟩
  have hmore : texts ++ '<' :: c :: behind ++ more = texts ++ '<' :: (c :: (behind ++ more)) := by simp
  unfold tgEmoji
  dsimp only
  rw [tag_of_isEmoji hroot, dropWhile_bracket (no_end_attributes root), List.tail_cons, hrender, hmore,
    PyText.dropWhile_ne htexts]
  refine if_neg fun hmatch => hslash ?_
  rcases hmatch.2.2 with ⟨_, heq⟩
  exact (List.cons.inj (List.cons.inj heq).2).1.symm

theorem clean_element {root : Element} {inside behind : List Char}
    (h : tgEmoji (root.tag ++ root.attributes ++ '>' :: (inside ++ '<' :: ('/' :: root.tag ++ '>' :: behind))) = none)
    {cleanInside : List Char} (hinside : ∀ rest, clean (inside ++ rest) = cleanInside ++ clean rest)
    : clean ('<' :: (root.tag ++ root.attributes ++ '>' :: (inside ++ '<' :: ('/' :: root.tag ++ '>' :: behind)))) =
        '<' :: (root.tag ++ root.attributes ++
          '>' :: (cleanInside ++ '<' :: ('/' :: root.tag ++ '>' :: clean behind))) := by
  have hopening : '<' ∉ root.tag ++ root.attributes ++ ['>'] := by
    simp only [List.mem_append, not_or, List.mem_singleton]
    exact ⟨⟨no_bracket_tag root, no_bracket_attributes root⟩, by decide⟩
  have hclosing : '<' ∉ '/' :: root.tag ++ ['>'] := by
    simp only [List.mem_append, List.mem_cons, not_or, List.not_mem_nil]
    exact ⟨⟨by decide, no_bracket_tag root⟩, by decide, id⟩
  have hend : tgEmoji ('/' :: root.tag ++ '>' :: behind) = none := by
    apply tgEmoji_of_not_prefix
    rintro ⟨_, heq⟩
    exact absurd (List.cons.inj heq).1 (by decide)
  have hopened := clean_text hopening (inside ++ '<' :: ('/' :: root.tag ++ '>' :: behind))
  have hclosed := clean_text hclosing behind
  rw [List.append_assoc, List.singleton_append] at hopened hclosed
  rw [clean_bracket h, hopened, hinside, clean_bracket hend, hclosed]
  simp only [List.append_assoc, List.cons_append, List.nil_append]

theorem clean_render (forest : Forest) (rest : List Char)
    : clean (forest.render ++ rest) = (unwrap forest).render ++ clean rest := by
  induction forest generalizing rest with
  | nil => rfl
  | text leaf forest ih =>
    rw [Forest.render, List.append_assoc, clean_text (no_bracket_escape leaf), ih, unwrap, Forest.render,
      List.append_assoc]
  | element root children forest ihc ih =>
    have hparts : (Forest.element root children forest).render ++ rest =
        '<' :: (root.tag ++ root.attributes ++
          '>' :: (children.render ++ '<' :: ('/' :: root.tag ++ '>' :: (forest.render ++ rest)))) := by
      simp only [Forest.render, List.append_assoc, List.cons_append]
    unfold unwrap
    split
    . next hunwrapped =>
      have hemoji := clean_emoji (no_end_attributes root) (no_bracket_texts hunwrapped.2) (forest.render ++ rest)
      rw [ih] at hemoji
      rw [hparts, tag_of_isEmoji hunwrapped.1, render_append, List.append_assoc children.render]
      exact hemoji
    . next hkept =>
      have hnone : tgEmoji (root.tag ++ root.attributes ++
          '>' :: (children.render ++ '<' :: ('/' :: root.tag ++ '>' :: (forest.render ++ rest)))) = none := by
        cases hroot : isEmoji root with
        | false => exact tgEmoji_of_not_prefix (not_prefix_of_not_emoji hroot _)
        | true =>
          have hchildren : onlyTexts children = false := by
            rw [Bool.eq_false_iff]
            exact fun h => hkept ⟨hroot, h⟩
          exact tgEmoji_of_not_texts hroot hchildren _
      rw [hparts, clean_element hnone ihc, ih]
      simp only [Forest.render, List.append_assoc, List.cons_append]

theorem clean_rendering (forest : Forest) : clean forest.render = (unwrap forest).render := by
  have hclean := clean_render forest []
  rwa [List.append_nil, clean_nil, List.append_nil] at hclean

def IsCustomEmoji (entity : Entity) : Prop := entity.type = .customEmoji

instance (entity : Entity) : Decidable (IsCustomEmoji entity) := inferInstanceAs (Decidable (_ = _))

theorem unwrap_eq_self {forest : Forest} {before : List Char}
    (hnone : ∀ entity ∈ forest.entities before, ¬ IsCustomEmoji entity) : unwrap forest = forest := by
  induction forest generalizing before with
  | nil => rfl
  | text leaf rest ih => rw [unwrap, ih hnone]
  | element root children rest ihc ih =>
    rw [Forest.entities] at hnone
    have hroot := (type_entity root _ _).mp (hnone _ (List.mem_append_right _ List.mem_cons_self))
    have hchildren := ihc fun entity hentity => hnone entity (List.mem_append_left _ hentity)
    have hrest := ih fun entity hentity => hnone entity (List.mem_append_right _ (List.mem_cons_of_mem _ hentity))
    unfold unwrap
    rw [hroot, hchildren, hrest]
    exact if_neg fun h => Bool.noConfusion h.1

section

variable (html5 : HtmlText.NamedReferences)

theorem htmlToEntities_of_forest (forest : Forest)
    : htmlToEntities html5 forest.render = some (forest.plain, forest.entities []) := by
  have hinit : ({} : State).utf16Pos = Utf16.len ({} : State).text := rfl
  have hrun : Run.exec (State.read html5) {} (pieces (forest.render ++ [])) = _ := exec_render forest hinit []
  rw [List.append_nil] at hrun
  unfold htmlToEntities
  rw [hrun]
  rfl

theorem htmlToEntities_clean {forest : Forest} (hemoji : EmojiOverTexts forest)
    : htmlToEntities html5 (clean forest.render) =
        some (forest.plain, (forest.entities []).filter fun entity => ¬ IsCustomEmoji entity) := by
  rw [clean_rendering, htmlToEntities_of_forest, plain_unwrap, entities_unwrap hemoji]
  rfl

theorem clean_eq_self_iff {forest : Forest} (hemoji : EmojiOverTexts forest)
    : clean forest.render = forest.render ↔ ∀ entity ∈ forest.entities [], ¬ IsCustomEmoji entity := by
  constructor
  . intro heq
    have hread := htmlToEntities_clean HtmlText.NamedReferences.predefined hemoji
    rw [heq, htmlToEntities_of_forest] at hread
    have hentities := congrArg Prod.snd (Option.some.inj hread)
    simpa using List.filter_eq_self.mp hentities.symm
  . intro hnone
    rw [clean_rendering, unwrap_eq_self hnone]

/--
The second text is tried if the first one is refused and has a custom emoji. It shows the same characters, with all
formats but the custom emoji.
-/
theorem safeEditText_render {forest : Forest} (hemoji : EmojiOverTexts forest) (first second : Outcome)
    : ∃ fallback,
        safeEditText true forest.render first second =
          (if first = .refused ∧ ∃ entity ∈ forest.entities [], IsCustomEmoji entity then
            ([forest.render, fallback], second.result)
          else
            ([forest.render], first.result)) ∧
        htmlToEntities html5 forest.render = some (forest.plain, forest.entities []) ∧
        htmlToEntities html5 fallback =
          some (forest.plain, (forest.entities []).filter fun entity => ¬ IsCustomEmoji entity) := by
  refine ⟨clean forest.render, ?_, htmlToEntities_of_forest html5 forest, htmlToEntities_clean html5 hemoji⟩
  have hself : clean forest.render ≠ forest.render ↔ ∃ entity ∈ forest.entities [], IsCustomEmoji entity := by
    rw [Ne, clean_eq_self_iff hemoji]
    simp only [not_forall, not_not, exists_prop]
  unfold safeEditText
  rw [if_pos rfl]
  cases first with
  | refused =>
    dsimp only
    by_cases hclean : clean forest.render ≠ forest.render
    . rw [if_pos hclean, if_pos ⟨rfl, hself.mp hclean⟩]
    . rw [if_neg hclean, if_neg fun h => hclean (hself.mpr h.2)]
      rfl
  | edited => exact (if_neg fun h => absurd h.1 nofun).symm
  | notModified => exact (if_neg fun h => absurd h.1 nofun).symm
  | raised => exact (if_neg fun h => absurd h.1 nofun).symm

end

def hourglass : Element :=
  .emoji ⟨"5890925363067886150".toList, by decide, List.all_eq_true.mp (by decide)⟩

def checkingStatus : Forest :=
  .element (.formatted "b".toList .bold (by decide)) (.text "IP:".toList .nil)
    (.text " Перевіряю ".toList (.element hourglass (.text "⏳".toList .nil) .nil))

theorem safeEditText_render_checkingStatus
    : ∃ fallback,
        safeEditText true checkingStatus.render .refused .edited = ([checkingStatus.render, fallback], some true) ∧
        htmlToEntities HtmlText.NamedReferences.predefined fallback =
          some ("IP: Перевіряю ⏳".toList, [{ type := .bold, offset := 0, length := 3 }]) := by
  have hemoji : EmojiOverTexts checkingStatus := ⟨nofun, trivial, fun _ => rfl, trivial, trivial⟩
  rcases safeEditText_render HtmlText.NamedReferences.predefined hemoji .refused .edited with
    ⟨fallback, hsent, _, hread⟩
  exact ⟨fallback, hsent.trans (if_pos ⟨rfl, by decide⟩), hread.trans (by decide)⟩

end SafeEdit

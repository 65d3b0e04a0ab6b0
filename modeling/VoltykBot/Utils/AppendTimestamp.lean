import VoltykBot.Utils.HtmlEntities

/-!
This module contains `append_timestamp`, which puts the time of a check behind a message, and where the two
entities lie that it adds.
-/

namespace HtmlEntities

def timestampPrefix : List Char := "\n\n🔄 Перевірено: ".toList

def emojiEntity (plainUtf16 : Int) : Entity where
  type := .customEmoji
  offset := plainUtf16 + Utf16.len "\n\n".toList
  length := Utf16.len "🔄".toList
  customEmojiId := some "5017470156276761427".toList

def timestampEntity (plainUtf16 checkTimeUnix : Int) (timestampStr : List Char) : Entity where
  type := .dateTime
  offset := plainUtf16 + Utf16.len timestampPrefix
  length := Utf16.len timestampStr
  unixTime := some checkTimeUnix
  dateTimeFormat := some "r"

variable (html5 : HtmlText.NamedReferences)

/--
`none` where it raises.
-/
def appendTimestamp (htmlMessage : List Char) (checkTimeUnix : Int) : Option (List Char × List Entity) :=
  (htmlToEntities html5 htmlMessage).bind fun (plainText, entities) =>
    (PyText.str checkTimeUnix).map fun timestampStr =>
      let fullText := plainText ++ timestampPrefix ++ timestampStr
      let plainUtf16 := Utf16.len plainText
      (fullText, entities ++ [emojiEntity plainUtf16, timestampEntity plainUtf16 checkTimeUnix timestampStr])

variable {html5}

theorem slice_emojiEntity (plainText timestampStr : List Char)
    : Utf16.slice (plainText ++ timestampPrefix ++ timestampStr) (emojiEntity (Utf16.len plainText)).offset
        (emojiEntity (Utf16.len plainText)).length
        =
      Utf16.encode "🔄".toList := by
  have hparts : plainText ++ timestampPrefix ++ timestampStr =
      (plainText ++ "\n\n".toList) ++ "🔄".toList ++ (" Перевірено: ".toList ++ timestampStr) := by
    unfold timestampPrefix
    simp
  unfold emojiEntity
  dsimp only
  rw [hparts, ← Utf16.len_append, Utf16.slice_middle]

theorem slice_timestampEntity (plainText timestampStr : List Char) (checkTimeUnix : Int)
    : Utf16.slice (plainText ++ timestampPrefix ++ timestampStr)
        (timestampEntity (Utf16.len plainText) checkTimeUnix timestampStr).offset
        (timestampEntity (Utf16.len plainText) checkTimeUnix timestampStr).length
        =
      Utf16.encode timestampStr := by
  unfold timestampEntity
  dsimp only
  have hmiddle := Utf16.slice_middle (plainText ++ timestampPrefix) timestampStr []
  rw [List.append_nil, Utf16.len_append] at hmiddle
  exact hmiddle

theorem within_of_appended {plainText timestampStr : List Char} {entities : List Entity} {checkTimeUnix : Int}
    (hentities : ∀ entity ∈ entities, entity.Within (Utf16.len plainText))
    : ∀ entity ∈ entities ++
          [emojiEntity (Utf16.len plainText),
            timestampEntity (Utf16.len plainText) checkTimeUnix timestampStr],
        entity.Within (Utf16.len (plainText ++ timestampPrefix ++ timestampStr)) := by
  have hplain := Utf16.len_nonneg plainText
  have hstr := Utf16.len_nonneg timestampStr
  have hprefix : Utf16.len "\n\n".toList + Utf16.len "🔄".toList ≤ Utf16.len timestampPrefix := by decide
  have hbreaks := Utf16.len_nonneg "\n\n".toList
  have hemoji := Utf16.len_nonneg "🔄".toList
  rw [Utf16.len_append, Utf16.len_append]
  intro entity hentity
  rcases List.mem_append.mp hentity with hold | hnew
  . exact (hentities entity hold).mono (by omega)
  . rcases List.mem_pair.mp hnew with rfl | rfl
    . unfold emojiEntity
      constructor <;> dsimp only <;> omega
    . unfold timestampEntity
      constructor <;> dsimp only <;> omega

/--
The new entities are the last ones, and lie over the emoji and over the number.
-/
theorem appendTimestamp_places (htmlMessage : List Char) (checkTimeUnix : Int) {plainText : List Char}
    {entities : List Entity} (h : htmlToEntities html5 htmlMessage = some (plainText, entities))
    : ((appendTimestamp html5 htmlMessage checkTimeUnix).isSome ↔
        (toString checkTimeUnix.natAbs).length ≤ PyText.maxStrDigits) ∧
      ∀ text result, appendTimestamp html5 htmlMessage checkTimeUnix = some (text, result) →
        ∃ emoji timestamp, result = entities ++ [emoji, timestamp] ∧
          emoji.type = .customEmoji ∧ timestamp.type = .dateTime ∧
          Utf16.slice text emoji.offset emoji.length = Utf16.encode "🔄".toList ∧
          Utf16.slice text timestamp.offset timestamp.length = Utf16.encode (toString checkTimeUnix).toList ∧
          ∀ entity ∈ result, entity.Within (Utf16.len text) := by
  unfold appendTimestamp PyText.str
  rw [h, Option.bind_some]
  dsimp only
  split
  . next hdigits =>
    refine ⟨iff_of_true rfl hdigits, ?_⟩
    intro text result hresult
    cases hresult
    exact ⟨_, _, rfl, rfl, rfl, slice_emojiEntity _ _, slice_timestampEntity _ _ _,
      within_of_appended (within_of_htmlToEntities h)⟩
  . next hdigits => exact ⟨iff_of_false Bool.false_ne_true hdigits, nofun⟩

theorem appendTimestamp_places_unclosed
    : ∃ emoji timestamp,
        (appendTimestamp HtmlText.NamedReferences.predefined "<b><i>😀</b>&amp".toList (-5)).map (·.2) =
            some [{ type := .bold, offset := 0, length := 2 }, emoji, timestamp] ∧
          emoji.type = .customEmoji ∧ timestamp.type = .dateTime := by
  have hhtml : htmlToEntities HtmlText.NamedReferences.predefined "<b><i>😀</b>&amp".toList =
      some ("😀&amp".toList, [{ type := .bold, offset := 0, length := 2 }]) := by decide
  obtain ⟨hreturns, hplaces⟩ := appendTimestamp_places _ (-5) hhtml
  obtain ⟨⟨text, result⟩, hresult⟩ := Option.isSome_iff_exists.mp (hreturns.mpr (by decide))
  obtain ⟨emoji, timestamp, rfl, htype, htype', _⟩ := hplaces text result hresult
  refine ⟨emoji, timestamp, ?_, htype, htype'⟩
  rw [hresult]
  rfl

end HtmlEntities

/-
What a reply has to say to be an answer.

The text of a reply is read with the grammar of `Lib/Json.lean`, so whether it is an answer
does not depend on the code that has written it.  A member that is there twice is read by
some readers as its first value and by others as its last, so each of the two members has to
be there once.
-/
import WebrtcEchoes.Lib.Json
import WebrtcEchoes.Lib.Utf8

namespace WebrtcEchoes

open Json

/-- The text is an object whose type is `answer`. -/
def IsAnswer (text : List UInt8) : Prop :=
  ∃ v, Reads text v ∧
    v.named (Utf8.encode "type".toList) = [.string (Utf8.encode "answer".toList)]

/-- The text is an object with the type `answer` and this SDP. -/
def AnswerText (sdp text : List UInt8) : Prop :=
  ∃ v, Reads text v ∧
    v.named (Utf8.encode "type".toList) = [.string (Utf8.encode "answer".toList)] ∧
    v.named (Utf8.encode "sdp".toList) = [.string sdp]

theorem AnswerText.isAnswer {sdp text : List UInt8} (h : AnswerText sdp text) : IsAnswer text := by
  obtain ⟨v, hreads, htype, -⟩ := h
  exact ⟨v, hreads, htype⟩

/-- A text that begins as no object does is no answer. -/
theorem not_isAnswer {text : List UInt8}
    (h : text.head?.all (fun b => decide (32 < b ∧ b ≠ 123)) = true) : ¬ IsAnswer text := by
  rintro ⟨v, hreads, htype⟩
  obtain ⟨b, s, rfl, hb⟩ := hreads.head (htype ▸ List.cons_ne_nil _ _)
  obtain ⟨hlow, hne⟩ : 32 < b ∧ b ≠ 123 := by simpa using h
  rcases hb with hb | hb
  · exact absurd hlow (UInt8.not_lt.mpr hb)
  · exact hne hb

/-! ### Answers that are written -/

/-- The text of an object with both members, in either order and with white space that is the
same for both. -/
def answerDoc (sdpFirst : Bool) (before between after : Space) (sdp : List UInt8) : Doc :=
  let typeKey := pieces (Utf8.encode "type".toList)
  let sdpKey := pieces (Utf8.encode "sdp".toList)
  let typeValue := Doc.string (pieces (Utf8.encode "answer".toList))
  let sdpValue := Doc.string (pieces sdp)
  if sdpFirst then
    .object (.more before sdpKey [] between sdpValue []
      (.last before typeKey [] between typeValue after))
  else
    .object (.more before typeKey [] between typeValue []
      (.last before sdpKey [] between sdpValue after))

theorem answerDoc_answerText (sdpFirst : Bool) (before between after : Space)
    (sdp : List UInt8) : AnswerText sdp (answerDoc sdpFirst before between after sdp).text := by
  refine ⟨_, ⟨[], [], answerDoc sdpFirst before between after sdp, ?_, rfl⟩, ?_⟩
  · simp [Space.text]
  have hne : Utf8.encode "sdp".toList ≠ Utf8.encode "type".toList := by decide +kernel
  have hpieces : ∀ bytes, id (stringBytes (pieces bytes)) = bytes := stringBytes_pieces
  cases sdpFirst with
  | false =>
      simp only [answerDoc, Doc.value, Members.values, hpieces, Bool.false_eq_true, if_false]
      rw [Value.named_cons_self, Value.named_cons_of_ne hne.symm, Value.named_cons_of_ne hne,
        Value.named_cons_self, Value.named_nil, Value.named_nil]
      exact ⟨rfl, rfl⟩
  | true =>
      simp only [answerDoc, Doc.value, Members.values, hpieces, if_true]
      rw [Value.named_cons_self, Value.named_cons_of_ne hne, Value.named_cons_of_ne hne.symm,
        Value.named_cons_self, Value.named_nil, Value.named_nil]
      exact ⟨rfl, rfl⟩

end WebrtcEchoes

/-
An offer on its way through the handler, from the text of the request to that of the reply.

The handler is known for any parser; here the parser is that of `cJSON.c`.  A document is an
offer by its members, and what `cJSON_Print` makes of the object with the answer is what the
handler was said to reply.
-/
import WebrtcEchoes.Proofs.Gstreamer.CJson.Print
import WebrtcEchoes.Proofs.Gstreamer.Handler

namespace WebrtcEchoes.Gstreamer.CJson

open Handler Server Json

variable {ν δ : Type}

/-- The object that the handler builds for an answer. -/
def answerItem (text : Bytes) : Value ν :=
  .object [(ascii "type", .string (ascii "answer")), (ascii "sdp", .string text)]

/-- The reply of the handler is what is printed for its object. -/
theorem printAnswer_eq (libc : Libc ν) (text : Bytes) :
    printAnswer text = printed libc true 0 (answerItem text) := by
  have htype : printString (ascii "type") = ascii "\"type\"" := by decide +kernel
  have hanswer : printString (ascii "answer") = ascii "\"answer\"" := by decide +kernel
  have hsdp : printString (ascii "sdp") = ascii "\"sdp\"" := by decide +kernel
  have hopen : ascii "\x7b\n\t\"type\":\t\"answer\",\n\t\"sdp\":\t" =
      ascii "\x7b" ++ (newline true ++ (List.replicate 1 9 ++ (ascii "\"type\"" ++ (colon true ++
        (ascii "\"answer\"" ++ (ascii "," ++ (newline true ++ (List.replicate 1 9 ++
          (ascii "\"sdp\"" ++ colon true))))))))) := by decide +kernel
  have hclose : ascii "\n\x7d" = newline true ++ ascii "\x7d" := by decide +kernel
  simp only [printAnswer, answerItem, printed, printedMembers, htype, hanswer, hsdp, hopen,
    hclose, List.isEmpty_cons, List.isEmpty_nil, comma, if_true, if_false, Bool.false_eq_true,
    List.replicate_zero, List.append_assoc, List.nil_append, List.append_nil, Nat.zero_add]

/-- The first member with the name is the string. -/
def FirstMember (name text : Bytes) (members : List (Bytes × Value ν)) : Prop :=
  (members.find? fun m => m.1 = name).map Prod.snd = some (.string text)

theorem firstMember_handler {name text : Bytes} :
    ∀ {members : List (Bytes × Value ν)}, FirstMember name text members →
      ((handlerMembers members).find? fun m => m.1 = name).map Prod.snd = some (.string text)
  | [], h => nomatch h
  | m :: rest, h => by
      unfold FirstMember at h
      by_cases hm : m.1 = name
      · rw [List.find?_cons_of_pos (by simpa using hm)] at h
        obtain ⟨m₁, m₂⟩ := m
        obtain rfl : m₂ = .string text := by simpa using h
        rw [handlerMembers, List.find?_cons_of_pos (by simpa using hm)]
        rfl
      · rw [List.find?_cons_of_neg (by simpa using hm)] at h
        rw [handlerMembers, List.find?_cons_of_neg (by simpa using hm)]
        exact firstMember_handler h

/-- The text of an object, with what may stand around it. -/
def objectText (mark : Bool) (w : Space) (members : Members) (rest : Bytes) : Bytes :=
  (if mark then bom else []) ++ (w.text ++ ((Doc.object members).text ++ rest))

/-- A valid text of an object with a string as its first `sdp` is an offer. -/
theorem hasOffer_doc (libc : Libc ν) (lib : Library δ) (mark : Bool) (w : Space)
    {members : Members} {rest sdp : Bytes} (hshort : members.AllNumerals Short)
    (hrest : Stops rest) (hdepth : members.depth < nestingLimit)
    (hsdp : FirstMember (ascii "sdp") sdp (seenMembers libc members)) :
    HasOffer (withCJson libc lib) (objectText mark w members rest) sdp := by
  have hparse : parse libc (objectText mark w members rest) = _ :=
    parse_text libc mark w (d := .object members) hshort hrest
  rw [within_item, if_pos (show (Doc.object members).depth ≤ nestingLimit from hdepth)] at hparse
  refine ⟨?_, handlerMembers (seenMembers libc members), ?_, firstMember_handler hsdp⟩
  · obtain ⟨b, s, hd, -⟩ := (Doc.object members).text_head
    rw [objectText, hd]
    simp
  · show (parse libc (cString (objectText mark w members rest))).map handlerItem = _
    have hstring : parse libc (cString (objectText mark w members rest)) =
        parse libc (objectText mark w members rest) := by
      unfold parse parseWithOpts
      rw [cString_cString]
    rw [hstring, hparse]
    rfl

/-- What is replied is read as the object that the handler has built. -/
theorem parse_printAnswer (libc : Libc ν) (text : Bytes) :
    parse libc (printAnswer text) = some (answerItem (cString text)) := by
  have hdepth : (answerItem text : Value ν).depth = 1 := rfl
  rw [printAnswer_eq libc, parse_printed_item, hdepth]
  rfl

/--
**An offer in any valid text gets its answer back as valid text.**

The body of the request is a text of an object, with white space, a byte order mark and
escapes as the sender likes, whose first member `sdp` is a string.  When a connection is made,
that string is an SDP and an answer is created for it, the one reply is 200, and its body is
read as an object with the type `answer` and the text of the answer.
-/
theorem offer_answered (libc : Libc ν) (lib : Library δ) (mark : Bool) (w : Space)
    (members : Members) (rest sdp : Bytes) (answer : δ) (hshort : members.AllNumerals Short)
    (hrest : Stops rest) (hdepth : members.depth < nestingLimit)
    (hsdp : FirstMember (ascii "sdp") sdp (seenMembers libc members))
    (hcreated : createWebrtc lib = true) (hbuffer : lib.parseBuffer sdp = true)
    (hanswer : lib.createAnswer sdp = .answer answer) :
    ∃ reply, onHttpRequest (withCJson libc lib) ⟨.post, objectText mark w members rest⟩ =
        ⟨[reply], .running⟩ ∧ reply.code = 200 ∧
      reply.body.map (parse libc) = some (some (answerItem (cString (lib.asText answer)))) := by
  have hoffer := hasOffer_doc libc lib mark w hshort hrest hdepth hsdp
  have hpost : (⟨.post, objectText mark w members rest⟩ : Request).type ≠ .options := nofun
  rcases onHttpRequest_cases (withCJson libc lib) hpost with ⟨sdp', hoffer', heq⟩ | ⟨hno, -⟩
  · obtain rfl := hoffer.unique hoffer'
    refine ⟨answerReply (withCJson libc lib) answer, ?_, rfl, ?_⟩
    · rw [heq]
      show (if createWebrtc lib = true then _ else _) = _
      rw [if_pos hcreated]
      show (if lib.parseBuffer sdp = true then afterWait (withCJson libc lib)
        (lib.createAnswer sdp) else _) = _
      rw [if_pos hbuffer, hanswer]
      rfl
    · exact congrArg some (parse_printAnswer libc (lib.asText answer))
  · exact absurd ⟨sdp, hoffer⟩ hno

/-- The one member of an object with the SDP `v=0`. -/
def offerMembers : Members :=
  .last [] (pieces (ascii "sdp")) [] [.space] (.string (pieces (ascii "v=0"))) []

theorem offerMembers_answered :
    ∃ reply, onHttpRequest (withCJson digitLibc (offerLibrary (.answer ())))
        ⟨.post, objectText false [] offerMembers []⟩ = ⟨[reply], .running⟩ ∧ reply.code = 200 ∧
      reply.body.map (parse digitLibc) = some (some (answerItem (ascii "v=0"))) := by
  have hsdp : FirstMember (ascii "sdp") (ascii "v=0") (seenMembers digitLibc offerMembers) := by
    show ((seenMembers digitLibc offerMembers).find? _).map Prod.snd = _
    have hname : cString (stringBytes (pieces (ascii "sdp"))) = ascii "sdp" := by
      rw [stringBytes_pieces]
      decide +kernel
    have htext : cString (stringBytes (pieces (ascii "v=0"))) = ascii "v=0" := by
      rw [stringBytes_pieces]
      decide +kernel
    show (([(cString (stringBytes (pieces (ascii "sdp"))),
      (Value.string (cString (stringBytes (pieces (ascii "v=0")))) : Value Nat))]).find?
        _).map Prod.snd = _
    rw [hname, htext, List.find?_cons_of_pos (by simp)]
    rfl
  have hshort : offerMembers.AllNumerals Short := trivial
  exact offer_answered digitLibc (offerLibrary (.answer ())) false [] offerMembers [] (ascii "v=0")
    () hshort stops_nil (by decide) hsdp rfl (by decide +kernel) rfl

end WebrtcEchoes.Gstreamer.CJson

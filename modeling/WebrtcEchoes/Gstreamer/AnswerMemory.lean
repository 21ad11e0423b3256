/-
`on_http_request_cb`, the answer as items in memory.

The handler builds an object with two members, prints it and forgets it: there is no
`cJSON_Delete` for it.  A member is made in two steps whose results it does not look at.
-/
import WebrtcEchoes.Gstreamer.ItemMemory

namespace WebrtcEchoes.Gstreamer.CJson

open Handler

variable {ν : Type} [Zero ν] (A : Allocator)

/-- The two statements for one member of the answer. -/
def addMember (answer : Option Loc) (name text : Bytes) (m : Memory ν) : Option (Memory ν) := do
  let (m, item) ← cJSONCreateString A (some (.constant text)) m
  let (m, _) ← addItemToObject A m answer (some (.constant name)) item false
  return m

/-- `sdp_json_answer`, for the text of an answer. -/
def buildAnswer (sdp : Bytes) (m : Memory ν) : Option (Memory ν × Option Loc) := do
  let (m, answer) ← cJSONCreateObject A m
  let m ← addMember A answer (ascii "type") (ascii "answer") m
  let m ← addMember A answer (ascii "sdp") sdp m
  return (m, answer)

/-- One request after the other, and the objects that were built for them. -/
def buildAnswers : List Bytes → Memory ν → Option (Memory ν × List (Option Loc))
  | [], m => some (m, [])
  | sdp :: rest, m => do
    let (m, answer) ← buildAnswer A sdp m
    let (m, answers) ← buildAnswers rest m
    return (m, answer :: answers)

end WebrtcEchoes.Gstreamer.CJson

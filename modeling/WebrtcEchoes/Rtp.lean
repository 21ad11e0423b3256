/-
RTP packets and the tracks they arrive on.

The echo servers read a packet as a value, set its SSRC and hand it on, so a packet is
its header and its payload.
-/
namespace WebrtcEchoes.Rtp

/-- `RTPCodecType` -/
inductive Kind
  | audio | video
  deriving DecidableEq, Repr

/-- `RTPCodecType.String` -/
def Kind.name : Kind → List Char
  | .audio => "audio".toList
  | .video => "video".toList

structure Header where
  version : UInt8
  padding : Bool
  marker : Bool
  payloadType : UInt8
  sequenceNumber : UInt16
  timestamp : UInt32
  ssrc : UInt32
  csrc : List UInt32
  /-- The profile of the header extension, and its elements. -/
  extension : Option (UInt16 × List (UInt8 × List UInt8))
  deriving DecidableEq, Repr

structure Packet where
  header : Header
  payload : List UInt8
  deriving DecidableEq, Repr

/-- `rtp.SSRC = ssrc` -/
def Packet.withSSRC (p : Packet) (ssrc : UInt32) : Packet :=
  { p with header := { p.header with ssrc := ssrc } }

@[simp] theorem Packet.withSSRC_ssrc (p : Packet) (ssrc : UInt32) :
    (p.withSSRC ssrc).header.ssrc = ssrc := rfl

/-- A track of the remote peer: the media of its section and the name of its codec. -/
structure RemoteTrack where
  kind : Kind
  codecName : List Char
  deriving DecidableEq, Repr

/-- `track.Codec().MimeType`, which is built as `media/name`. -/
def RemoteTrack.mimeType (t : RemoteTrack) : List Char := t.kind.name ++ '/' :: t.codecName

/-- `strings.HasPrefix(mimeType, "audio")` -/
def isAudio (mimeType : List Char) : Bool := "audio".toList.isPrefixOf mimeType

/-- The out track that the prefix of the MIME type selects. -/
def outTrack (mimeType : List Char) : Kind := if isAudio mimeType then .audio else .video

/-- The prefix test finds the kind of the track. -/
@[simp] theorem outTrack_mimeType (t : RemoteTrack) : outTrack t.mimeType = t.kind := by
  obtain ⟨kind, name⟩ := t
  cases kind with
  | audio =>
      have h : isAudio (RemoteTrack.mimeType ⟨.audio, name⟩) = true := by
        rw [isAudio, List.isPrefixOf_iff_prefix]
        exact List.prefix_append _ _
      simp [outTrack, h]
  | video =>
      have h : isAudio (RemoteTrack.mimeType ⟨.video, name⟩) = false := by
        simp [isAudio, RemoteTrack.mimeType, Kind.name, List.isPrefixOf]
      simp [outTrack, h]

end WebrtcEchoes.Rtp

/-! RTP header extensions, the names they are negotiated under, and how much room their
values take. -/
namespace LayeredRtp

inductive HeaderExtension where
  | absoluteSendTime
  | absoluteCaptureTime
  | audioLevel
  | inbandComfortNoise
  | transmissionTimeOffset
  | videoOrientation
  | transportSequenceNumber
  | playoutDelay
  | videoContentType
  | videoTiming
  | rtpStreamId
  | repairedRtpStreamId
  | rtpMid
  | colorSpace
deriving DecidableEq, Repr, Inhabited

namespace HeaderExtension

def all : List HeaderExtension :=
  [absoluteSendTime, absoluteCaptureTime, audioLevel, inbandComfortNoise,
   transmissionTimeOffset, videoOrientation, transportSequenceNumber, playoutDelay,
   videoContentType, videoTiming, rtpStreamId, repairedRtpStreamId, rtpMid, colorSpace]

def name : HeaderExtension → String
  | absoluteSendTime => "AbsoluteSendTime"
  | absoluteCaptureTime => "AbsoluteCaptureTime"
  | audioLevel => "AudioLevel"
  | inbandComfortNoise => "InbandComfortNoise"
  | transmissionTimeOffset => "TransmissionTimeOffset"
  | videoOrientation => "VideoOrientation"
  | transportSequenceNumber => "TransportSequenceNumber"
  | playoutDelay => "PlayoutDelay"
  | videoContentType => "VideoContentType"
  | videoTiming => "VideoTiming"
  | rtpStreamId => "RtpStreamId"
  | repairedRtpStreamId => "RepairedRtpStreamId"
  | rtpMid => "RtpMid"
  | colorSpace => "ColorSpace"

def uri : HeaderExtension → String
  | absoluteSendTime => "http://www.webrtc.org/experiments/rtp-hdrext/abs-send-time"
  | absoluteCaptureTime => "http://www.webrtc.org/experiments/rtp-hdrext/abs-capture-time"
  | audioLevel => "urn:ietf:params:rtp-hdrext:ssrc-audio-level"
  | inbandComfortNoise => "http://www.webrtc.org/experiments/rtp-hdrext/inband-cn"
  | transmissionTimeOffset => "urn:ietf:params:rtp-hdrext:toffset"
  | videoOrientation => "urn:3gpp:video-orientation"
  | transportSequenceNumber =>
    "http://www.ietf.org/id/draft-holmer-rmcat-transport-wide-cc-extensions-01"
  | playoutDelay => "http://www.webrtc.org/experiments/rtp-hdrext/playout-delay"
  | videoContentType => "http://www.webrtc.org/experiments/rtp-hdrext/video-content-type"
  | videoTiming => "http://www.webrtc.org/experiments/rtp-hdrext/video-timing"
  | rtpStreamId => "urn:ietf:params:rtp-hdrext:sdes:rtp-stream-id"
  | repairedRtpStreamId => "urn:ietf:params:rtp-hdrext:sdes:repaired-rtp-stream-id"
  | rtpMid => "urn:ietf:params:rtp-hdrext:sdes:mid"
  | colorSpace => "http://www.webrtc.org/experiments/rtp-hdrext/color-space"

def ofUri? (uri : String) : Option HeaderExtension :=
  all.find? fun e => e.uri == uri

/-- Octets of the value as a sender writes it; for names, the most they can take. -/
def valueSize : HeaderExtension → Nat
  | absoluteSendTime | transmissionTimeOffset | playoutDelay => 3
  | absoluteCaptureTime => 16
  | audioLevel | inbandComfortNoise | videoOrientation | videoContentType => 1
  | transportSequenceNumber => 2
  | videoTiming => 13
  | rtpStreamId | repairedRtpStreamId | rtpMid => 16
  | colorSpace => 28

/-- Whether every packet can be expected to carry the extension once it is registered. -/
def isNonVolatile : HeaderExtension → Bool
  | transmissionTimeOffset | audioLevel | absoluteSendTime | transportSequenceNumber
  | rtpStreamId | repairedRtpStreamId | rtpMid => true
  | _ => false

def measuresBandwidth : HeaderExtension → Bool
  | transportSequenceNumber | absoluteSendTime | transmissionTimeOffset => true
  | _ => false

abbrev Sizes := List (HeaderExtension × Nat)

def repairSizes : Sizes :=
  [(absoluteSendTime, 3), (transmissionTimeOffset, 3), (transportSequenceNumber, 2),
   (playoutDelay, 3), (rtpMid, 16), (videoTiming, 13)]

def videoSizes : Sizes :=
  [(absoluteSendTime, 3), (absoluteCaptureTime, 16), (transmissionTimeOffset, 3),
   (transportSequenceNumber, 2), (playoutDelay, 3), (videoOrientation, 1),
   (videoContentType, 1), (videoTiming, 13), (rtpStreamId, 16), (repairedRtpStreamId, 16),
   (rtpMid, 16)]

def audioSizes : Sizes :=
  [(absoluteSendTime, 3), (absoluteCaptureTime, 16), (audioLevel, 1),
   (inbandComfortNoise, 1), (transmissionTimeOffset, 3), (transportSequenceNumber, 2),
   (rtpStreamId, 16), (repairedRtpStreamId, 16), (rtpMid, 16)]

theorem mem_all (e : HeaderExtension) : e ∈ all := by cases e <;> decide

end HeaderExtension
end LayeredRtp

import RivetLink.Sdk.SigningContexts

/-!
# Messages of a LAN session

What a client and a host say to each other over the sealed channel once the handshake is over:
`LanRequest` and `LanResponse`. `LanResponse.isScreenContent` tells the responses that show the
host's screen from the others. `verifyIdentity` is the host's check of the identity that a client
announces when it starts a stream.
-/

namespace RivetLink.Sdk

open RivetLink.Foundation

inductive PtrButton where
  | left
  | right
  | middle
  deriving DecidableEq, Repr

inductive ConsoleInputPacket where
  | pointerMove (x y : UInt16)
  | pointerButton (button : PtrButton) (down : Bool)
  | scroll (dx dy : Int16)
  | key (code : Str) (down : Bool)
  deriving DecidableEq

inductive LanRequest where
  | screenshot
  | startStream (fps : UInt16) (display : Option UInt32) (name identityKey identitySig : Option Str)
      (codecs : List Str)
  | listDisplays
  | switchDisplay (display : UInt32)
  | pointerMove (x y : UInt16)
  | pointerButton (button : PtrButton) (down : Bool)
  | scroll (dx dy : Int16)
  | key (code : Str) (down : Bool)
  | consoleCapture (inputs : List ConsoleInputPacket)
  | enableSharing
  | clipboardSet (text : Str)
  | fileUploadStart (id : UInt32) (path : Str) (size : UInt64)
  | fileUploadChunk (id : UInt32) (dataB64 : Str)
  | fileUploadEnd (id : UInt32)
  | listSharedFiles
  | fileDownload (id : UInt32) (path : Str)
  | requestKeyframe
  deriving DecidableEq

structure DisplayInfo where
  id : UInt32
  name : Str
  deriving DecidableEq

structure TilePatch where
  i : UInt32
  jpegB64 : Str
  deriving DecidableEq

/-- The tiles that changed since the previous frame; all of them in a keyframe. -/
structure FrameDelta where
  w : UInt32
  h : UInt32
  tile : UInt32
  keyframe : Bool
  tiles : List TilePatch
  deriving DecidableEq

structure VideoFrame where
  w : UInt32
  h : UInt32
  keyframe : Bool
  dataB64 : Str
  deriving DecidableEq

inductive StreamFrame where
  | tiles (delta : FrameDelta)
  | video (frame : VideoFrame)
  deriving DecidableEq

/-- Who owns the physical console. -/
inductive HostConsoleState where
  | booting
  | gdmLogin
  | sessionStarting
  | desktopReady
  | sessionLocked
  | sessionSwitching
  | offline
  deriving DecidableEq, Repr

structure SharedEntry where
  path : Str
  size : UInt64
  dir : Bool
  deriving DecidableEq

inductive LanResponse where
  | screenshot (pngB64 : Str)
  | frame (delta : FrameDelta)
  | video (frame : VideoFrame)
  | displays (displays : List DisplayInfo) (features : List Str)
  | consoleCapture (pngB64 : Str) (state : Option HostConsoleState) (generation : Option UInt64)
  | sharingEnabled (clipboard files : Bool)
  | clipboardText (text : Str)
  | fileUploaded (id : UInt32) (path : Str)
  | sharedFiles (entries : List SharedEntry)
  | fileChunk (id : UInt32) (size : UInt64) (dataB64 : Str) (eof : Bool)
  | fileError (id : UInt32) (message : String)
  | error (message : String)
  deriving DecidableEq

def StreamFrame.response : StreamFrame → LanResponse
  | .tiles delta => .frame delta
  | .video frame => .video frame

def LanResponse.isFrame : LanResponse → Bool
  | .frame _ => true
  | .video _ => true
  | _ => false

def LanResponse.isScreenContent : LanResponse → Bool
  | .screenshot _ => true
  | .consoleCapture _ _ _ => true
  | r => r.isFrame

def codecH264 : Str := ⟨['h', '2', '6', '4'], by decide⟩

section Identity

variable (S : SignatureScheme) (B : Base64)

/-- The announced public key, encoded anew, if the proof checks out. -/
def verifyIdentity (publicKeyB64 sigB64 : Str) : Option Str := do
  let key ← (decodeN B 32 publicKeyB64).toOption
  let sig ← (decodeN B 64 sigB64).toOption
  let _ ← (S.parseKey key).toOption
  if S.verify key (identityProofMessage key) sig then some (B.encode key.bytes) else none

end Identity

end RivetLink.Sdk

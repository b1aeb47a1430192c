import RivetLink.Foundation.Serde
import RivetLink.Sdk.DirectSession
import RivetLink.Sdk.LanMessages

/-!
# JSON form of the handshake and LAN messages

`Wire`, `LanRequest` and `LanResponse` are written as JSON objects with the name of the variant
under `"t"`, `"op"` or `"ok"`. Beside each type stand its fields as they are written and as they are
read, the fields that an older peer does not send, and the value in which those have their defaults.
An optional text or number is `null` when it is absent; the fields `pq`, `codecs` and `features` are
not written at all then. The variants `Frame` and `Video` carry one record each, whose fields stand
beside the tag.
-/

namespace RivetLink.Sdk

open RivetLink.Foundation

/-! ## Parts of messages -/

def PtrButton.name : PtrButton → String
  | .left => "left"
  | .right => "right"
  | .middle => "middle"

def PtrButton.codec : JsonCodec PtrButton 0 :=
  .names [.left, .right, .middle] PtrButton.name fun a => by cases a <;> decide

def HostConsoleState.name : HostConsoleState → String
  | .booting => "booting"
  | .gdmLogin => "gdm_login"
  | .sessionStarting => "session_starting"
  | .desktopReady => "desktop_ready"
  | .sessionLocked => "session_locked"
  | .sessionSwitching => "session_switching"
  | .offline => "offline"

def HostConsoleState.codec : JsonCodec HostConsoleState 0 :=
  .names [.booting, .gdmLogin, .sessionStarting, .desktopReady, .sessionLocked, .sessionSwitching,
    .offline] HostConsoleState.name fun a => by cases a <;> decide

def optionalStr : JsonCodec (Option Str) 0 := JsonCodec.str.nullable nofun

theorem defaulted_optionalStr {ms : Members} {k : String} {s : Option Str}
    (h : occurrences ms k = s.toList.map JsonCodec.str.toJson) :
    defaulted optionalStr none ms k = some s :=
  defaulted_of_unlessNone _ h

def optionalU32 : JsonCodec (Option UInt32) 0 := JsonCodec.u32.nullable nofun

def optionalU64 : JsonCodec (Option UInt64) 0 := JsonCodec.u64.nullable nofun

def optionalState : JsonCodec (Option HostConsoleState) 0 :=
  HostConsoleState.codec.nullable nofun

/-! ## Handshake messages -/

namespace Wire

def tag : Wire → String
  | .pake _ _ _ => "Pake"
  | .kex _ _ => "Kex"
  | .confirm _ => "Confirm"
  | .reject _ => "Reject"

def members : Wire → Members
  | .pake v msg pq =>
    [("v", JsonCodec.u16.toJson v), ("msg", JsonCodec.str.toJson msg)] ++
      unlessNone .str "pq" pq
  | .kex v fields =>
    [("v", JsonCodec.u16.toJson v), ("eph", JsonCodec.str.toJson fields.eph),
      ("id", JsonCodec.str.toJson fields.id), ("sig", JsonCodec.str.toJson fields.sig)] ++
      unlessNone .str "pq" fields.pq
  | .confirm token => [("sealed", JsonCodec.str.toJson token)]
  | .reject reason => [("reason", JsonCodec.string.toJson reason)]

def ofMembers (tag : String) (ms : Members) : Option Wire :=
  match tag with
  | "Pake" => do
      let v ← required .u16 ms "v"
      let msg ← required .str ms "msg"
      let pq ← defaulted optionalStr none ms "pq"
      some (.pake v msg pq)
  | "Kex" => do
      let v ← required .u16 ms "v"
      let eph ← required .str ms "eph"
      let id ← required .str ms "id"
      let sig ← required .str ms "sig"
      let pq ← defaulted optionalStr none ms "pq"
      some (.kex v ⟨eph, id, sig, pq⟩)
  | "Confirm" => do
      let token ← required .str ms "sealed"
      some (.confirm token)
  | "Reject" => do
      let reason ← required .string ms "reason"
      some (.reject reason)
  | _ => none

def optionalKeys : Wire → List String
  | .pake _ _ _ => ["pq"]
  | .kex _ _ => ["pq"]
  | _ => []

def reset (drop : String → Bool) : Wire → Wire
  | .pake v msg pq => .pake v msg (if drop "pq" then none else pq)
  | .kex v fields => .kex v { fields with pq := if drop "pq" then none else fields.pq }
  | w => w

def json : TaggedUnion Wire 0 where
  tagKey := "t"
  tag := tag
  members := members
  ofMembers := ofMembers
  optionalKeys := optionalKeys
  reset := reset
  tagKey_notMem := by
    intro w
    cases w <;> simp +contextual [members]
  tagKey_required := by
    intro w
    cases w <;> simp [optionalKeys]
  fits := by
    intro w
    cases w <;> simp +contextual [members, JsonCodec.fits]
  reset_none := by
    intro w
    cases w <;> simp [reset]
  ofMembers_without := by
    intro drop w
    cases w with
    | pake v msg pq =>
      simp only [tag, ofMembers, optionalKeys, reset]
      rw [required_without (a := v) rfl (by simp [members]),
        required_without (a := msg) rfl (by simp [members]),
        defaulted_without (a := pq) rfl (defaulted_optionalStr (by simp [members]))]
      rfl
    | kex v fields =>
      simp only [tag, ofMembers, optionalKeys, reset]
      rw [required_without (a := v) rfl (by simp [members]),
        required_without (a := fields.eph) rfl (by simp [members]),
        required_without (a := fields.id) rfl (by simp [members]),
        required_without (a := fields.sig) rfl (by simp [members]),
        defaulted_without (a := fields.pq) rfl (defaulted_optionalStr (by simp [members]))]
      rfl
    | confirm token => simp [tag, ofMembers, optionalKeys, members, required, reset]
    | reject reason => simp [tag, ofMembers, optionalKeys, members, required, reset]

end Wire

/-! ## Requests -/

namespace ConsoleInputPacket

def tag : ConsoleInputPacket → String
  | .pointerMove _ _ => "pointer_move"
  | .pointerButton _ _ => "pointer_button"
  | .scroll _ _ => "scroll"
  | .key _ _ => "key"

def members : ConsoleInputPacket → Members
  | .pointerMove x y => [("x", JsonCodec.u16.toJson x), ("y", JsonCodec.u16.toJson y)]
  | .pointerButton button down =>
    [("button", PtrButton.codec.toJson button), ("down", JsonCodec.bool.toJson down)]
  | .scroll dx dy => [("dx", JsonCodec.i16.toJson dx), ("dy", JsonCodec.i16.toJson dy)]
  | .key code down => [("code", JsonCodec.str.toJson code), ("down", JsonCodec.bool.toJson down)]

def ofMembers (tag : String) (ms : Members) : Option ConsoleInputPacket :=
  match tag with
  | "pointer_move" => do
      let x ← required .u16 ms "x"
      let y ← required .u16 ms "y"
      some (.pointerMove x y)
  | "pointer_button" => do
      let button ← required PtrButton.codec ms "button"
      let down ← required .bool ms "down"
      some (.pointerButton button down)
  | "scroll" => do
      let dx ← required .i16 ms "dx"
      let dy ← required .i16 ms "dy"
      some (.scroll dx dy)
  | "key" => do
      let code ← required .str ms "code"
      let down ← required .bool ms "down"
      some (.key code down)
  | _ => none

def json : TaggedUnion ConsoleInputPacket 0 where
  tagKey := "type"
  tag := tag
  members := members
  ofMembers := ofMembers
  optionalKeys _ := []
  reset _ p := p
  tagKey_notMem := by
    intro p
    cases p <;> simp [members]
  tagKey_required := by simp
  fits := by
    intro p
    cases p <;> simp [members, JsonCodec.fits]
  reset_none _ := rfl
  ofMembers_without := by
    intro drop p
    cases p <;> simp [tag, ofMembers, members, required]

end ConsoleInputPacket

namespace LanRequest

def tag : LanRequest → String
  | .screenshot => "Screenshot"
  | .startStream _ _ _ _ _ _ => "StartStream"
  | .listDisplays => "ListDisplays"
  | .switchDisplay _ => "SwitchDisplay"
  | .pointerMove _ _ => "PointerMove"
  | .pointerButton _ _ => "PointerButton"
  | .scroll _ _ => "Scroll"
  | .key _ _ => "Key"
  | .consoleCapture _ => "ConsoleCapture"
  | .enableSharing => "EnableSharing"
  | .clipboardSet _ => "ClipboardSet"
  | .fileUploadStart _ _ _ => "FileUploadStart"
  | .fileUploadChunk _ _ => "FileUploadChunk"
  | .fileUploadEnd _ => "FileUploadEnd"
  | .listSharedFiles => "ListSharedFiles"
  | .fileDownload _ _ => "FileDownload"
  | .requestKeyframe => "RequestKeyframe"

def members : LanRequest → Members
  | .startStream fps display name identityKey identitySig codecs =>
    [("fps", JsonCodec.u16.toJson fps), ("display", optionalU32.toJson display),
      ("name", optionalStr.toJson name), ("identity_key", optionalStr.toJson identityKey),
      ("identity_sig", optionalStr.toJson identitySig)] ++ unlessEmpty .str "codecs" codecs
  | .switchDisplay display => [("display", JsonCodec.u32.toJson display)]
  | .pointerMove x y => [("x", JsonCodec.u16.toJson x), ("y", JsonCodec.u16.toJson y)]
  | .pointerButton button down =>
    [("button", PtrButton.codec.toJson button), ("down", JsonCodec.bool.toJson down)]
  | .scroll dx dy => [("dx", JsonCodec.i16.toJson dx), ("dy", JsonCodec.i16.toJson dy)]
  | .key code down => [("code", JsonCodec.str.toJson code), ("down", JsonCodec.bool.toJson down)]
  | .consoleCapture inputs => [("inputs", ConsoleInputPacket.json.codec.list.toJson inputs)]
  | .clipboardSet text => [("text", JsonCodec.str.toJson text)]
  | .fileUploadStart id path size =>
    [("id", JsonCodec.u32.toJson id), ("path", JsonCodec.str.toJson path),
      ("size", JsonCodec.u64.toJson size)]
  | .fileUploadChunk id dataB64 =>
    [("id", JsonCodec.u32.toJson id), ("data_b64", JsonCodec.str.toJson dataB64)]
  | .fileUploadEnd id => [("id", JsonCodec.u32.toJson id)]
  | .fileDownload id path =>
    [("id", JsonCodec.u32.toJson id), ("path", JsonCodec.str.toJson path)]
  | .screenshot | .listDisplays | .enableSharing | .listSharedFiles | .requestKeyframe => []

def ofMembers (tag : String) (ms : Members) : Option LanRequest :=
  match tag with
  | "Screenshot" => some .screenshot
  | "StartStream" => do
      let fps ← required .u16 ms "fps"
      let display ← defaulted optionalU32 none ms "display"
      let name ← defaulted optionalStr none ms "name"
      let identityKey ← defaulted optionalStr none ms "identity_key"
      let identitySig ← defaulted optionalStr none ms "identity_sig"
      let codecs ← defaulted (.list .str) [] ms "codecs"
      some (.startStream fps display name identityKey identitySig codecs)
  | "ListDisplays" => some .listDisplays
  | "SwitchDisplay" => do
      let display ← required .u32 ms "display"
      some (.switchDisplay display)
  | "PointerMove" => do
      let x ← required .u16 ms "x"
      let y ← required .u16 ms "y"
      some (.pointerMove x y)
  | "PointerButton" => do
      let button ← required PtrButton.codec ms "button"
      let down ← required .bool ms "down"
      some (.pointerButton button down)
  | "Scroll" => do
      let dx ← required .i16 ms "dx"
      let dy ← required .i16 ms "dy"
      some (.scroll dx dy)
  | "Key" => do
      let code ← required .str ms "code"
      let down ← required .bool ms "down"
      some (.key code down)
  | "ConsoleCapture" => do
      let inputs ← defaulted ConsoleInputPacket.json.codec.list [] ms "inputs"
      some (.consoleCapture inputs)
  | "EnableSharing" => some .enableSharing
  | "ClipboardSet" => do
      let text ← required .str ms "text"
      some (.clipboardSet text)
  | "FileUploadStart" => do
      let id ← required .u32 ms "id"
      let path ← required .str ms "path"
      let size ← required .u64 ms "size"
      some (.fileUploadStart id path size)
  | "FileUploadChunk" => do
      let id ← required .u32 ms "id"
      let dataB64 ← required .str ms "data_b64"
      some (.fileUploadChunk id dataB64)
  | "FileUploadEnd" => do
      let id ← required .u32 ms "id"
      some (.fileUploadEnd id)
  | "ListSharedFiles" => some .listSharedFiles
  | "FileDownload" => do
      let id ← required .u32 ms "id"
      let path ← required .str ms "path"
      some (.fileDownload id path)
  | "RequestKeyframe" => some .requestKeyframe
  | _ => none

def optionalKeys : LanRequest → List String
  | .startStream _ _ _ _ _ _ => ["display", "name", "identity_key", "identity_sig", "codecs"]
  | .consoleCapture _ => ["inputs"]
  | _ => []

def reset (drop : String → Bool) : LanRequest → LanRequest
  | .startStream fps display name identityKey identitySig codecs =>
    .startStream fps (if drop "display" then none else display)
      (if drop "name" then none else name)
      (if drop "identity_key" then none else identityKey)
      (if drop "identity_sig" then none else identitySig)
      (if drop "codecs" then [] else codecs)
  | .consoleCapture inputs => .consoleCapture (if drop "inputs" then [] else inputs)
  | r => r

/-- The request that starts a stream, with any of its optional fields left out. -/
theorem ofMembers_startStream (drop : String → Bool) (fps : UInt16) (display : Option UInt32)
    (name identityKey identitySig : Option Str) (codecs : List Str) :
    ofMembers "StartStream"
      (without drop (optionalKeys (.startStream fps display name identityKey identitySig codecs))
        (members (.startStream fps display name identityKey identitySig codecs))) =
      some (reset drop (.startStream fps display name identityKey identitySig codecs)) := by
  simp only [ofMembers, optionalKeys, reset]
  rw [required_without (a := fps) rfl (by simp [members]),
    defaulted_without (a := display) rfl (defaulted_of_occurrences (by simp [members])),
    defaulted_without (a := name) rfl (defaulted_of_occurrences (by simp [members])),
    defaulted_without (a := identityKey) rfl (defaulted_of_occurrences (by simp [members])),
    defaulted_without (a := identitySig) rfl (defaulted_of_occurrences (by simp [members])),
    defaulted_without (a := codecs) rfl (defaulted_of_unlessEmpty (by simp [members]))]
  rfl

def json : TaggedUnion LanRequest 2 where
  tagKey := "op"
  tag := tag
  members := members
  ofMembers := ofMembers
  optionalKeys := optionalKeys
  reset := reset
  tagKey_notMem := by
    intro r
    cases r <;> simp +contextual [members]
  tagKey_required := by
    intro r
    cases r <;> simp [optionalKeys]
  fits := by
    intro r
    cases r <;> simp +contextual [members, JsonCodec.fits, JsonCodec.fits_of_le]
  reset_none := by
    intro r
    cases r <;> simp [reset]
  ofMembers_without := by
    intro drop r
    cases r with
    | startStream => exact ofMembers_startStream drop _ _ _ _ _ _
    | consoleCapture inputs =>
      simp only [tag, ofMembers, optionalKeys, reset]
      rw [defaulted_without (a := inputs) rfl (defaulted_of_occurrences (by simp [members]))]
      rfl
    | _ => simp [tag, ofMembers, optionalKeys, members, required, reset]

end LanRequest

/-! ## Responses -/

def DisplayInfo.members (d : DisplayInfo) : Members :=
  [("id", JsonCodec.u32.toJson d.id), ("name", JsonCodec.str.toJson d.name)]

def DisplayInfo.ofMembers (ms : Members) : Option DisplayInfo := do
  let id ← required .u32 ms "id"
  let name ← required .str ms "name"
  some ⟨id, name⟩

def DisplayInfo.codec : JsonCodec DisplayInfo 1 :=
  .object DisplayInfo.members DisplayInfo.ofMembers
    (fun d => by simp [DisplayInfo.members, DisplayInfo.ofMembers, required])
    (fun d => by simp [DisplayInfo.members, JsonCodec.fits])

def TilePatch.members (t : TilePatch) : Members :=
  [("i", JsonCodec.u32.toJson t.i), ("jpeg_b64", JsonCodec.str.toJson t.jpegB64)]

def TilePatch.ofMembers (ms : Members) : Option TilePatch := do
  let i ← required .u32 ms "i"
  let jpegB64 ← required .str ms "jpeg_b64"
  some ⟨i, jpegB64⟩

def TilePatch.codec : JsonCodec TilePatch 1 :=
  .object TilePatch.members TilePatch.ofMembers
    (fun t => by simp [TilePatch.members, TilePatch.ofMembers, required])
    (fun t => by simp [TilePatch.members, JsonCodec.fits])

def SharedEntry.members (e : SharedEntry) : Members :=
  [("path", JsonCodec.str.toJson e.path), ("size", JsonCodec.u64.toJson e.size),
    ("dir", JsonCodec.bool.toJson e.dir)]

def SharedEntry.ofMembers (ms : Members) : Option SharedEntry := do
  let path ← required .str ms "path"
  let size ← required .u64 ms "size"
  let dir ← required .bool ms "dir"
  some ⟨path, size, dir⟩

def SharedEntry.codec : JsonCodec SharedEntry 1 :=
  .object SharedEntry.members SharedEntry.ofMembers
    (fun e => by simp [SharedEntry.members, SharedEntry.ofMembers, required])
    (fun e => by simp [SharedEntry.members, JsonCodec.fits])

def FrameDelta.members (f : FrameDelta) : Members :=
  [("w", JsonCodec.u32.toJson f.w), ("h", JsonCodec.u32.toJson f.h),
    ("tile", JsonCodec.u32.toJson f.tile), ("keyframe", JsonCodec.bool.toJson f.keyframe),
    ("tiles", TilePatch.codec.list.toJson f.tiles)]

def FrameDelta.ofMembers (ms : Members) : Option FrameDelta := do
  let w ← required .u32 ms "w"
  let h ← required .u32 ms "h"
  let tile ← required .u32 ms "tile"
  let keyframe ← required .bool ms "keyframe"
  let tiles ← required TilePatch.codec.list ms "tiles"
  some ⟨w, h, tile, keyframe, tiles⟩

def VideoFrame.members (f : VideoFrame) : Members :=
  [("w", JsonCodec.u32.toJson f.w), ("h", JsonCodec.u32.toJson f.h),
    ("keyframe", JsonCodec.bool.toJson f.keyframe), ("data_b64", JsonCodec.str.toJson f.dataB64)]

def VideoFrame.ofMembers (ms : Members) : Option VideoFrame := do
  let w ← required .u32 ms "w"
  let h ← required .u32 ms "h"
  let keyframe ← required .bool ms "keyframe"
  let dataB64 ← required .str ms "data_b64"
  some ⟨w, h, keyframe, dataB64⟩

namespace LanResponse

def tag : LanResponse → String
  | .screenshot _ => "Screenshot"
  | .frame _ => "Frame"
  | .video _ => "Video"
  | .displays _ _ => "Displays"
  | .consoleCapture _ _ _ => "ConsoleCapture"
  | .sharingEnabled _ _ => "SharingEnabled"
  | .clipboardText _ => "ClipboardText"
  | .fileUploaded _ _ => "FileUploaded"
  | .sharedFiles _ => "SharedFiles"
  | .fileChunk _ _ _ _ => "FileChunk"
  | .fileError _ _ => "FileError"
  | .error _ => "Error"

def members : LanResponse → Members
  | .screenshot pngB64 => [("png_b64", JsonCodec.str.toJson pngB64)]
  | .frame delta => delta.members
  | .video picture => picture.members
  | .displays infos features =>
    [("displays", DisplayInfo.codec.list.toJson infos)] ++ unlessEmpty .str "features" features
  | .consoleCapture pngB64 state generation =>
    [("png_b64", JsonCodec.str.toJson pngB64), ("state", optionalState.toJson state),
      ("generation", optionalU64.toJson generation)]
  | .sharingEnabled clipboard files =>
    [("clipboard", JsonCodec.bool.toJson clipboard), ("files", JsonCodec.bool.toJson files)]
  | .clipboardText text => [("text", JsonCodec.str.toJson text)]
  | .fileUploaded id path =>
    [("id", JsonCodec.u32.toJson id), ("path", JsonCodec.str.toJson path)]
  | .sharedFiles entries => [("entries", SharedEntry.codec.list.toJson entries)]
  | .fileChunk id size dataB64 eof =>
    [("id", JsonCodec.u32.toJson id), ("size", JsonCodec.u64.toJson size),
      ("data_b64", JsonCodec.str.toJson dataB64), ("eof", JsonCodec.bool.toJson eof)]
  | .fileError id message =>
    [("id", JsonCodec.u32.toJson id), ("message", JsonCodec.string.toJson message)]
  | .error message => [("message", JsonCodec.string.toJson message)]

def ofMembers (tag : String) (ms : Members) : Option LanResponse :=
  match tag with
  | "Screenshot" => do
      let pngB64 ← required .str ms "png_b64"
      some (.screenshot pngB64)
  | "Frame" => do
      let delta ← FrameDelta.ofMembers ms
      some (.frame delta)
  | "Video" => do
      let picture ← VideoFrame.ofMembers ms
      some (.video picture)
  | "Displays" => do
      let infos ← required DisplayInfo.codec.list ms "displays"
      let features ← defaulted (.list .str) [] ms "features"
      some (.displays infos features)
  | "ConsoleCapture" => do
      let pngB64 ← required .str ms "png_b64"
      let state ← defaulted optionalState none ms "state"
      let generation ← defaulted optionalU64 none ms "generation"
      some (.consoleCapture pngB64 state generation)
  | "SharingEnabled" => do
      let clipboard ← required .bool ms "clipboard"
      let files ← required .bool ms "files"
      some (.sharingEnabled clipboard files)
  | "ClipboardText" => do
      let text ← required .str ms "text"
      some (.clipboardText text)
  | "FileUploaded" => do
      let id ← required .u32 ms "id"
      let path ← required .str ms "path"
      some (.fileUploaded id path)
  | "SharedFiles" => do
      let entries ← required SharedEntry.codec.list ms "entries"
      some (.sharedFiles entries)
  | "FileChunk" => do
      let id ← required .u32 ms "id"
      let size ← required .u64 ms "size"
      let dataB64 ← required .str ms "data_b64"
      let eof ← required .bool ms "eof"
      some (.fileChunk id size dataB64 eof)
  | "FileError" => do
      let id ← required .u32 ms "id"
      let message ← required .string ms "message"
      some (.fileError id message)
  | "Error" => do
      let message ← required .string ms "message"
      some (.error message)
  | _ => none

def optionalKeys : LanResponse → List String
  | .displays _ _ => ["features"]
  | .consoleCapture _ _ _ => ["state", "generation"]
  | _ => []

def reset (drop : String → Bool) : LanResponse → LanResponse
  | .displays infos features => .displays infos (if drop "features" then [] else features)
  | .consoleCapture pngB64 state generation =>
    .consoleCapture pngB64 (if drop "state" then none else state)
      (if drop "generation" then none else generation)
  | r => r

def json : TaggedUnion LanResponse 2 where
  tagKey := "ok"
  tag := tag
  members := members
  ofMembers := ofMembers
  optionalKeys := optionalKeys
  reset := reset
  tagKey_notMem := by
    intro r
    cases r <;> simp +contextual [members, FrameDelta.members, VideoFrame.members]
  tagKey_required := by
    intro r
    cases r <;> simp [optionalKeys]
  fits := by
    intro r
    cases r <;> simp +contextual [members, FrameDelta.members, VideoFrame.members,
      JsonCodec.fits, JsonCodec.fits_of_le]
  reset_none := by
    intro r
    cases r <;> simp [reset]
  ofMembers_without := by
    intro drop r
    cases r with
    | displays infos features =>
      simp only [tag, ofMembers, optionalKeys, reset]
      rw [required_without (a := infos) rfl (by simp [members]),
        defaulted_without (a := features) rfl (defaulted_of_unlessEmpty (by simp [members]))]
      rfl
    | consoleCapture pngB64 state generation =>
      simp only [tag, ofMembers, optionalKeys, reset]
      rw [required_without (a := pngB64) rfl (by simp [members]),
        defaulted_without (a := state) rfl (defaulted_of_occurrences (by simp [members])),
        defaulted_without (a := generation) rfl (defaulted_of_occurrences (by simp [members]))]
      rfl
    | frame delta =>
      simp [tag, ofMembers, FrameDelta.ofMembers, optionalKeys, members, FrameDelta.members,
        required, reset]
    | video picture =>
      simp [tag, ofMembers, VideoFrame.ofMembers, optionalKeys, members, VideoFrame.members,
        required, reset]
    | _ => simp [tag, ofMembers, optionalKeys, members, required, reset]

end LanResponse

end RivetLink.Sdk

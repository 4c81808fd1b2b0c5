import FlowListing.Fault
import FlowListing.Listing.Line

/-!
# Sinks

A sink takes text until it is closed. Closing lets go of what stands behind it, once: a stream that the sink owns is closed, a
borrowed one is flushed. Writing to a closed sink is refused, and a refused write leaves the sink as it was.

A stream may refuse a text, because it has no bytes for it or cannot be written to, and it may fail when it is let go, after it took all
that was written. The sink is closed all the same, and its stream is not let go again.

A sink is called to write, to close, and at the end of a block that uses it, which closes it too (`Call`). The call after one that
failed is made all the same.
-/

namespace FlowListing

/-! ## Streams -/

/-- Why a stream fails: a text has no bytes in its encoding, or the system reports a failed access. -/
inductive StreamFault where
  | unencodable (message : String)
  | access (fault : AccessFault)
  deriving DecidableEq, Repr

/-- The text of a stream fault. -/
def StreamFault.message : StreamFault → String
  | .unencodable message => message
  | .access fault => fault.message

/-- A text of plain characters, which every stream has bytes for. -/
def IsPlain (text : String) : Prop :=
  ∀ c ∈ text.toList, c.toNat < 128

/-- A text stream, as far as a sink depends on it. Without further word it is a UTF-8 file on which nothing fails. -/
structure Stream where
  /-- Why the stream does not take a text after this many writes; nothing when it does. -/
  refusal? : (writes : Nat) → (text : String) → Option StreamFault := fun _ _ => none
  /-- Why the stream cannot be flushed or closed after this many writes; nothing when it can. -/
  releaseFault? : (writes : Nat) → Option StreamFault := fun _ => none
  /-- The bytes behind the stream in the end, whether it could be let go or not. -/
  stored : (held : String) → List UInt8 := fun held => held.toUTF8.data.toList
  /-- One plain text is to the stream what any other is. -/
  plain : ∀ writes text other, IsPlain text → IsPlain other → refusal? writes text = refusal? writes other := by
    intros; rfl

/-! ## Media -/

/-- What stands behind a sink. -/
inductive Medium where
  | memory
  | stream (owned : Bool) (file : Stream := {})
  /-- Memory that takes only so many writes. -/
  | bounded (limit : Nat)
  /-- Nothing to write to. -/
  | absent

/-- Why a call on a sink fails. -/
inductive SinkFault where
  | closed
  | full
  | unsupported
  /-- The stream does not take the text. -/
  | refused (fault : StreamFault)
  /-- The stream cannot be let go. -/
  | unreleased (fault : StreamFault)
  deriving DecidableEq, Repr

/-- The text of a sink fault. -/
def SinkFault.message : SinkFault → String
  | .closed => "write to closed output"
  | .full => "sink full"
  | .unsupported => "Subclasses must implement _write()"
  | .refused fault | .unreleased fault => fault.message

namespace Medium

/-- Why a medium does not take a text after this many writes. -/
def refusal? (medium : Medium) (writes : Nat) (text : String) : Option SinkFault :=
  match medium with
  | .memory => none
  | .stream _ file => (file.refusal? writes text).map .refused
  | .bounded limit => if limit ≤ writes then some .full else none
  | .absent => some .unsupported

/-- Why a medium cannot be let go after this many writes. -/
def releaseFault? (medium : Medium) (writes : Nat) : Option SinkFault :=
  match medium with
  | .stream _ file => (file.releaseFault? writes).map .unreleased
  | _ => none

end Medium

/-! ## Sinks -/

/-- A sink: its medium, the text and the number of the writes that it took, whether it is closed, how often it flushed and closed its
stream, and how often it released its medium. -/
structure Sink where
  medium : Medium
  text : String := ""
  writes : Nat := 0
  closed : Bool := false
  flushes : Nat := 0
  closes : Nat := 0
  releases : Nat := 0

namespace Sink

/-- Why the sink does not take a text. -/
def refusal? (sink : Sink) (text : String) : Option SinkFault :=
  if sink.closed then some .closed else sink.medium.refusal? sink.writes text

/-- The sink with one more text. -/
def add (sink : Sink) (text : String) : Sink :=
  { sink with text := sink.text ++ text, writes := sink.writes + 1 }

/-- The sink after one write. -/
def write (sink : Sink) (text : String) : Except SinkFault Sink :=
  match sink.refusal? text with
  | some fault => .error fault
  | none => .ok (sink.add text)

/-- The sink after it let go of its medium, and why that failed, if it did. -/
def release (sink : Sink) : Sink × Option SinkFault :=
  let released := { sink with releases := sink.releases + 1 }
  let after := match sink.medium with
    | .stream true _ => { released with closes := sink.closes + 1 }
    | .stream false _ => { released with flushes := sink.flushes + 1 }
    | _ => released
  (after, sink.medium.releaseFault? sink.writes)

/-- The sink, closed, and why it could not let go of its medium, if it could not. Closing a closed sink does nothing. -/
def close (sink : Sink) : Sink × Option SinkFault :=
  if sink.closed then (sink, none) else { sink with closed := true }.release

/-- The sink after writing texts in order, up to the first write that is refused, and then closing. When both a write and the closing
fail, the latter is what is reported. -/
def writeAllAndClose (sink : Sink) : List String → Sink × Option SinkFault
  | [] => sink.close
  | text :: rest =>
    match sink.write text with
    | .ok sink => sink.writeAllAndClose rest
    | .error fault => (sink.close.1, sink.close.2.or (some fault))

end Sink

/-! ## Calls -/

/-- A call on a sink. -/
inductive Call where
  /-- Write text as it is. -/
  | fragment (text : String)
  | line (text : String)
  | comment (text : String)
  | blank
  | close
  /-- End a block that uses the sink. -/
  | leave
  deriving DecidableEq, Repr

/-- The text that a call writes. A call that writes none closes the sink. -/
def Call.text? : Call → Option String
  | .fragment text => some text
  | .line text => some (text ++ "\n")
  | .comment text => some (commentText text ++ "\n")
  | .blank => some "\n"
  | .close | .leave => none

/-- The sink after a call, and why the call failed, if it did. -/
def Sink.call (sink : Sink) (call : Call) : Sink × Option SinkFault :=
  match call.text? with
  | none => sink.close
  | some text =>
    match sink.write text with
    | .ok after => (after, none)
    | .error fault => (sink, some fault)

end FlowListing

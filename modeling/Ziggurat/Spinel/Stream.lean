import Ziggurat.Lib.Delimited
import Ziggurat.Spinel.Protocol

/-!
# Decoding a stream in pieces

The reader gets the stream from the radio in pieces of any size.  What it makes of them is the
same as if it had the whole stream, cut it at the flags, and decoded each segment by itself:
`parseFrames_eq` says so for one buffer, in terms of `Lib.Delimited.cut`, and `received` carries it
over the pieces, and `handleChunks_route` over what the frames are routed to.

Only the bytes before the first flag are of no account, and a segment has to fit the buffer.
-/

namespace Ziggurat

open Lib.Delimited

variable (crcKermit : Bytes → UInt16)

/-- What stands between two flags, unescaped, checked and parsed by itself. -/
def decodeSegment (segment : Bytes) : Option SpinelFrame := do
  let data ← (hdlcUnescape crcKermit segment).toOption
  (SpinelFrame.fromBytes data).toOption

namespace SpinelProtocol

/-- What is left when there is no flag in the buffer: a long run is dropped. -/
def settle (protocol : SpinelProtocol) : SpinelProtocol :=
  if protocol.buffer.length > maxHdlcBufferSize then
    { protocol with buffer := [], ignoringUntilNextFlag := true }
  else protocol

variable {protocol : SpinelProtocol}

theorem findIdx?_flag {segment : Bytes} (h : HdlcSpecial.flag.byte ∉ segment) (tail : Bytes) :
    (segment ++ HdlcSpecial.flag.byte :: tail).findIdx? (· = HdlcSpecial.flag.byte) =
      some segment.length := by
  refine List.findIdx?_eq_some_iff_getElem.mpr ⟨?_, ?_, fun j hj => ?_⟩
  · rw [List.length_append, List.length_cons]
    omega
  · simp
  · rw [List.getElem_append_left hj, decide_eq_true_eq]
    exact fun heq => h (heq ▸ List.getElem_mem hj)

theorem findIdx?_flag_eq_none {buffer : Bytes} (h : HdlcSpecial.flag.byte ∉ buffer) :
    buffer.findIdx? (· = HdlcSpecial.flag.byte) = none := by
  refine List.findIdx?_eq_none_iff.mpr fun byte hbyte => ?_
  rw [decide_eq_false_iff_not]
  exact fun heq => h (heq ▸ hbyte)

theorem parseFrames_of_none {protocol' : SpinelProtocol}
    (h : protocol.nextFrameInto crcKermit = (none, protocol')) :
    protocol.parseFrames crcKermit = ([], protocol') := by
  rw [parseFrames]
  split
  next heq =>
    cases h.symm.trans heq
    rfl
  next heq => cases h.symm.trans heq

theorem parseFrames_of_some {protocol' : SpinelProtocol} {data : Bytes}
    (h : protocol.nextFrameInto crcKermit = (some data, protocol')) :
    protocol.parseFrames crcKermit =
      ((SpinelFrame.fromBytes data).toOption.toList ++ (protocol'.parseFrames crcKermit).1,
        (protocol'.parseFrames crcKermit).2) := by
  rw [parseFrames]
  split
  next heq => cases h.symm.trans heq
  next heq =>
    cases h.symm.trans heq
    rfl

theorem parseFrames_congr {protocol' : SpinelProtocol}
    (h : protocol.nextFrameInto crcKermit = protocol'.nextFrameInto crcKermit) :
    protocol.parseFrames crcKermit = protocol'.parseFrames crcKermit := by
  match hnext : protocol'.nextFrameInto crcKermit with
  | (none, _) =>
    rw [parseFrames_of_none crcKermit hnext, parseFrames_of_none crcKermit (h.trans hnext)]
  | (some _, _) =>
    rw [parseFrames_of_some crcKermit hnext, parseFrames_of_some crcKermit (h.trans hnext)]

theorem nextFrameInto_of_notMem (h : HdlcSpecial.flag.byte ∉ protocol.buffer) :
    protocol.nextFrameInto crcKermit = (none, protocol.settle) := by
  rw [nextFrameInto]
  split
  next =>
    unfold settle
    split_ifs
    · rfl
    · rfl
  next index hindex =>
    rw [findIdx?_flag_eq_none h] at hindex
    cases hindex

theorem parseFrames_of_notMem (h : HdlcSpecial.flag.byte ∉ protocol.buffer) :
    protocol.parseFrames crcKermit = ([], protocol.settle) :=
  parseFrames_of_none crcKermit (nextFrameInto_of_notMem crcKermit h)

/-- The protocol behind a flag. -/
def behindFlag (protocol : SpinelProtocol) (tail : Bytes) : SpinelProtocol :=
  { protocol with buffer := tail, ignoringUntilNextFlag := false }

/-- What a segment adds to the frames. -/
def segmentFrame (protocol : SpinelProtocol) (segment : Bytes) : Option SpinelFrame :=
  if protocol.ignoringUntilNextFlag then none else decodeSegment crcKermit segment

/-- A round of `next_frame_into` on a segment. -/
theorem nextFrameInto_of_segment {segment tail : Bytes} (h : HdlcSpecial.flag.byte ∉ segment)
    (hbuffer : protocol.buffer = segment ++ HdlcSpecial.flag.byte :: tail) :
    protocol.nextFrameInto crcKermit =
      match (if protocol.ignoringUntilNextFlag then none
        else (hdlcUnescape crcKermit segment).toOption) with
      | some data => (some data, protocol.behindFlag tail)
      | none => (protocol.behindFlag tail).nextFrameInto crcKermit := by
  have htake : protocol.buffer.take segment.length = segment := by
    rw [hbuffer, List.take_left]
  have hdrop : protocol.buffer.drop (segment.length + 1) = tail := by
    rw [hbuffer, List.append_cons, List.drop_left' (by rw [List.length_append]; rfl)]
  have hparsed : (if !protocol.ignoringUntilNextFlag && segment.length > 0 then
        (hdlcUnescape crcKermit (protocol.buffer.take segment.length)).toOption else none) =
      if protocol.ignoringUntilNextFlag then none
        else (hdlcUnescape crcKermit segment).toOption := by
    rw [htake]
    cases protocol.ignoringUntilNextFlag with
    | true => rfl
    | false =>
      -- two flags in a row are not tried, and there would be no frame between them
      cases segment with
      | nil => rfl
      | cons byte segment => rfl
  rw [nextFrameInto]
  split
  next hnone =>
    rw [hbuffer, findIdx?_flag h tail] at hnone
    cases hnone
  next index hindex =>
    rw [hbuffer, findIdx?_flag h tail] at hindex
    cases hindex
    dsimp only
    rw [hparsed, hdrop]
    rfl

/-- A segment is decoded by itself, and the rest as if it were the whole buffer. -/
theorem parseFrames_of_segment {segment tail : Bytes} (h : HdlcSpecial.flag.byte ∉ segment)
    (hbuffer : protocol.buffer = segment ++ HdlcSpecial.flag.byte :: tail) :
    protocol.parseFrames crcKermit =
      ((protocol.segmentFrame crcKermit segment).toList ++
        ((protocol.behindFlag tail).parseFrames crcKermit).1,
        ((protocol.behindFlag tail).parseFrames crcKermit).2) := by
  have hnext := nextFrameInto_of_segment crcKermit h hbuffer
  unfold segmentFrame decodeSegment
  generalize hignoring : protocol.ignoringUntilNextFlag = ignoring at hnext
  cases ignoring with
  | true => exact parseFrames_congr crcKermit hnext
  | false =>
    generalize hdata : (hdlcUnescape crcKermit segment).toOption = decoded at hnext
    cases decoded with
    | some data => exact parseFrames_of_some crcKermit hnext
    | none => exact parseFrames_congr crcKermit hnext

/-- The segments of the buffer that are decoded. -/
def segments (protocol : SpinelProtocol) : List Bytes :=
  let all := (cut HdlcSpecial.flag.byte protocol.buffer).1
  if protocol.ignoringUntilNextFlag then all.tail else all

/-- The protocol behind the last flag of the buffer. -/
def behindSegments (protocol : SpinelProtocol) : SpinelProtocol :=
  if (cut HdlcSpecial.flag.byte protocol.buffer).1 = [] then protocol
  else protocol.behindFlag (cut HdlcSpecial.flag.byte protocol.buffer).2

theorem buffer_behindSegments (protocol : SpinelProtocol) :
    protocol.behindSegments.buffer = (cut HdlcSpecial.flag.byte protocol.buffer).2 := by
  unfold behindSegments
  split_ifs with hnil
  · rw [rest_eq_of_segments_eq_nil hnil]
  · rfl

/-- The frames of a buffer and what is left of it. -/
theorem parseFrames_eq (protocol : SpinelProtocol) :
    protocol.parseFrames crcKermit =
      (protocol.segments.filterMap (decodeSegment crcKermit), protocol.behindSegments.settle) := by
  induction hlen : protocol.buffer.length using Nat.strongRecOn generalizing protocol with
  | _ n ih =>
    obtain hnone | ⟨segment, tail, hsegment, hbuffer⟩ :=
      notMem_or_eq_append HdlcSpecial.flag.byte protocol.buffer
    · rw [parseFrames_of_notMem crcKermit hnone, segments, behindSegments, cut_of_notMem hnone]
      cases protocol.ignoringUntilNextFlag with
      | true => rfl
      | false => rfl
    · have hlt : tail.length < n := by
        rw [← hlen, hbuffer, List.length_append, List.length_cons]
        omega
      have htail := ih tail.length hlt (protocol.behindFlag tail) rfl
      have hcut : cut HdlcSpecial.flag.byte protocol.buffer =
          (segment :: (cut HdlcSpecial.flag.byte tail).1, (cut HdlcSpecial.flag.byte tail).2) := by
        rw [hbuffer, cut_append_cons hsegment]
      have hleft : (protocol.behindFlag tail).behindSegments = protocol.behindSegments := by
        rw [behindSegments, behindSegments, hcut, if_neg (List.cons_ne_nil _ _)]
        change (if (cut HdlcSpecial.flag.byte tail).1 = [] then protocol.behindFlag tail else _) = _
        split_ifs with hnil
        · rw [rest_eq_of_segments_eq_nil hnil]
        · rfl
      rw [parseFrames_of_segment crcKermit hsegment hbuffer, htail, hleft, segments, segments, hcut]
      refine congrArg (·, protocol.behindSegments.settle) ?_
      unfold segmentFrame
      cases protocol.ignoringUntilNextFlag with
      | true => rfl
      | false =>
        change (decodeSegment crcKermit segment).toList ++ _ =
          (segment :: (cut HdlcSpecial.flag.byte tail).1).filterMap (decodeSegment crcKermit)
        rw [List.filterMap_cons]
        cases decodeSegment crcKermit segment with
        | none => rfl
        | some frame => rfl

/-! ## Pieces -/

/-- The stream in pieces, one call for each. -/
def receive (protocol : SpinelProtocol) : List Bytes → List SpinelFrame × SpinelProtocol
  | [] => ([], protocol)
  | chunk :: chunks =>
    let (frames, protocol') := protocol.parseFramesFromBytes crcKermit chunk
    let (frames', protocol'') := protocol'.receive chunks
    (frames ++ frames', protocol'')

/-- The runs of bytes that are still to come, the last one without a flag behind it. -/
def runs (protocol : SpinelProtocol) (stream : Bytes) : List Bytes :=
  let all := (protocol.buffer ++ stream).splitOn HdlcSpecial.flag.byte
  if protocol.ignoringUntilNextFlag then all.tail else all

theorem runs_settle {stream : Bytes} (hflag : HdlcSpecial.flag.byte ∉ protocol.buffer)
    (hruns : ∀ run ∈ protocol.runs stream, run.length ≤ maxHdlcBufferSize) :
    protocol.settle.runs stream = protocol.runs stream := by
  unfold settle
  split_ifs with hlong
  · obtain ⟨run, tail, hrun, hall⟩ := exists_splitOn_append hflag stream
    unfold runs at hruns ⊢
    rw [hall] at hruns ⊢
    -- a long run before the first flag is not among the runs, and no other run is long
    cases hignoring : protocol.ignoringUntilNextFlag with
    | true =>
      dsimp only
      rw [List.nil_append, hrun]
      rfl
    | false =>
      rw [hignoring] at hruns
      have hshort := hruns _ (List.mem_cons_self)
      rw [List.length_append] at hshort
      omega
  · rfl

theorem flag_notMem_settle (h : HdlcSpecial.flag.byte ∉ protocol.buffer) :
    HdlcSpecial.flag.byte ∉ protocol.settle.buffer := by
  unfold settle
  split_ifs
  · exact List.not_mem_nil
  · exact h

/-- The runs of the buffer are complete or go on in what follows. -/
theorem runs_eq (protocol : SpinelProtocol) (stream : Bytes) :
    protocol.runs stream = protocol.segments ++ protocol.behindSegments.runs stream ∧
      (protocol.runs stream).dropLast =
        protocol.segments ++ (protocol.behindSegments.runs stream).dropLast := by
  have hall := splitOn_append (d := HdlcSpecial.flag.byte) protocol.buffer stream
  have hbuffer := buffer_behindSegments protocol
  have hne : ((cut HdlcSpecial.flag.byte protocol.buffer).2 ++ stream).splitOn
      HdlcSpecial.flag.byte ≠ [] := List.splitOnP_ne_nil _ _
  unfold runs segments
  rw [hbuffer, hall]
  unfold behindSegments
  generalize ((cut HdlcSpecial.flag.byte protocol.buffer).2 ++ stream).splitOn
    HdlcSpecial.flag.byte = following at hne
  generalize (cut HdlcSpecial.flag.byte protocol.buffer).2 = rest
  generalize (cut HdlcSpecial.flag.byte protocol.buffer).1 = complete
  cases complete with
  | nil =>
    rw [if_pos rfl]
    cases protocol.ignoringUntilNextFlag with
    | true => exact ⟨rfl, rfl⟩
    | false => exact ⟨rfl, rfl⟩
  | cons segment complete =>
    rw [if_neg (List.cons_ne_nil _ _)]
    cases protocol.ignoringUntilNextFlag with
    | true => exact ⟨rfl, List.dropLast_append_of_ne_nil hne⟩
    | false => exact ⟨rfl, List.dropLast_append_of_ne_nil hne⟩

/-- The frames of a stream in pieces are those of its runs. -/
theorem receive_eq (chunks : List Bytes) (protocol : SpinelProtocol)
    (hflag : HdlcSpecial.flag.byte ∉ protocol.buffer)
    (hruns : ∀ run ∈ protocol.runs chunks.flatten, run.length ≤ maxHdlcBufferSize) :
    (protocol.receive crcKermit chunks).1 =
      (protocol.runs chunks.flatten).dropLast.filterMap (decodeSegment crcKermit) := by
  induction chunks generalizing protocol with
  | nil =>
    have hall : protocol.buffer.splitOn HdlcSpecial.flag.byte = [protocol.buffer] := by
      rw [splitOn_eq, cut_of_notMem hflag]
      rfl
    unfold runs
    rw [List.flatten_nil, List.append_nil, hall]
    cases protocol.ignoringUntilNextFlag with
    | true => rfl
    | false => rfl
  | cons chunk chunks ih =>
    let extended : SpinelProtocol := { protocol with buffer := protocol.buffer ++ chunk }
    have hextended : protocol.runs (chunk :: chunks).flatten = extended.runs chunks.flatten := by
      unfold runs
      rw [List.flatten_cons, ← List.append_assoc]
    obtain ⟨hall, hcomplete⟩ := extended.runs_eq chunks.flatten
    have hbehind : HdlcSpecial.flag.byte ∉ extended.behindSegments.buffer := by
      rw [buffer_behindSegments]
      exact notMem_rest _ _
    have hsettle : extended.behindSegments.settle.runs chunks.flatten =
        extended.behindSegments.runs chunks.flatten := by
      refine runs_settle hbehind fun run hrun => hruns run ?_
      rw [hextended, hall]
      exact List.mem_append_right _ hrun
    have hrest := ih extended.behindSegments.settle (flag_notMem_settle hbehind) (by
      intro run hrun
      rw [hsettle] at hrun
      refine hruns run ?_
      rw [hextended, hall]
      exact List.mem_append_right _ hrun)
    have hfirst : protocol.parseFramesFromBytes crcKermit chunk =
        (extended.segments.filterMap (decodeSegment crcKermit),
          extended.behindSegments.settle) :=
      parseFrames_eq crcKermit extended
    rw [receive, hfirst, hextended, hcomplete, List.filterMap_append, ← hsettle, ← hrest]

/-! ## Routing -/

/-- The frames are routed one after the other. -/
def route (protocol : SpinelProtocol) : List SpinelFrame → SpinelProtocol × List SpinelDelivery
  | [] => (protocol, [])
  | frame :: frames =>
    let routed := protocol.handleInboundFrame frame.header frame.commandId frame.payload
    let rest := routed.1.route frames
    (rest.1, routed.2 ++ rest.2)

/-- The accumulated bytes of another protocol. -/
def withBytes (protocol bytes : SpinelProtocol) : SpinelProtocol :=
  { protocol with
    buffer := bytes.buffer
    ignoringUntilNextFlag := bytes.ignoringUntilNextFlag }

theorem handleUnsolicitedLastStatus_withBytes (protocol bytes : SpinelProtocol) (value : Bytes) :
    (protocol.withBytes bytes).handleUnsolicitedLastStatus value =
      ((protocol.handleUnsolicitedLastStatus value).1.withBytes bytes,
        (protocol.handleUnsolicitedLastStatus value).2) := by
  unfold handleUnsolicitedLastStatus
  split
  next =>
    split_ifs
    · split
      next =>
        split_ifs
        · rfl
        · rfl
      next => rfl
    · rfl
  next => rfl

/-- Routing does not look at the accumulated bytes. -/
theorem handleInboundFrame_withBytes (protocol bytes : SpinelProtocol) (header : SpinelHeader)
    (commandId : SpinelCommandId) (payload : Bytes) :
    (protocol.withBytes bytes).handleInboundFrame header commandId payload =
      ((protocol.handleInboundFrame header commandId payload).1.withBytes bytes,
        (protocol.handleInboundFrame header commandId payload).2) := by
  by_cases htid : header.transactionId = 0
  · unfold handleInboundFrame
    rw [if_pos htid, if_pos htid]
    split_ifs
    · split
      next propertyId value _ =>
        split_ifs with hstatus hreceiver hother hother
        · exact handleUnsolicitedLastStatus_withBytes protocol bytes value
        · rfl
        · exact absurd hreceiver hother
        · exact absurd hother hreceiver
        · rfl
      next => rfl
    · rfl
  · rw [handleInboundFrame_of_ne htid, handleInboundFrame_of_ne htid]
    rfl

/-- Taking a frame out looks at nothing else. -/
theorem nextFrameInto_withBytes (protocol bytes : SpinelProtocol) :
    (protocol.withBytes bytes).nextFrameInto crcKermit =
      ((bytes.nextFrameInto crcKermit).1,
        protocol.withBytes (bytes.nextFrameInto crcKermit).2) := by
  induction hlen : bytes.buffer.length using Nat.strongRecOn generalizing bytes with
  | _ n ih =>
    obtain hnone | ⟨segment, tail, hsegment, hbuffer⟩ :=
      notMem_or_eq_append HdlcSpecial.flag.byte bytes.buffer
    · have hboth : HdlcSpecial.flag.byte ∉ (protocol.withBytes bytes).buffer := hnone
      rw [nextFrameInto_of_notMem crcKermit hnone, nextFrameInto_of_notMem crcKermit hboth]
      refine congrArg (none, ·) ?_
      unfold settle
      change (if bytes.buffer.length > maxHdlcBufferSize then _ else _) = _
      split_ifs
      · rfl
      · rfl
    · have hlt : tail.length < n := by
        rw [← hlen, hbuffer, List.length_append, List.length_cons]
        omega
      have htail := ih tail.length hlt (bytes.behindFlag tail) rfl
      have hboth : (protocol.withBytes bytes).buffer =
          segment ++ HdlcSpecial.flag.byte :: tail := hbuffer
      rw [nextFrameInto_of_segment crcKermit hsegment hbuffer,
        nextFrameInto_of_segment crcKermit hsegment hboth]
      change (match (if bytes.ignoringUntilNextFlag then none
        else (hdlcUnescape crcKermit segment).toOption) with | some _ => _ | none => _) = _
      cases (if bytes.ignoringUntilNextFlag then none
        else (hdlcUnescape crcKermit segment).toOption) with
      | some data => rfl
      | none => exact htail

theorem handleFrames_of_none {protocol' : SpinelProtocol}
    (h : protocol.nextFrameInto crcKermit = (none, protocol')) :
    protocol.handleFrames crcKermit = (protocol', []) := by
  rw [handleFrames]
  split
  next heq =>
    cases h.symm.trans heq
    rfl
  next heq => cases h.symm.trans heq

theorem handleFrames_of_some {protocol' : SpinelProtocol} {data : Bytes}
    (h : protocol.nextFrameInto crcKermit = (some data, protocol')) :
    protocol.handleFrames crcKermit =
      match parseSpinelParts data with
      | .ok (header, commandId, payload) =>
        let routed := protocol'.handleInboundFrame header commandId payload
        ((routed.1.handleFrames crcKermit).1, routed.2 ++ (routed.1.handleFrames crcKermit).2)
      | .error _ => protocol'.handleFrames crcKermit := by
  rw [handleFrames]
  split
  next heq => cases h.symm.trans heq
  next heq =>
    cases h.symm.trans heq
    rfl

/-- `handle_inbound_bytes` routes the frames that `parse_frames_from_bytes` returns. -/
theorem handleFrames_eq (protocol bytes : SpinelProtocol) :
    (protocol.withBytes bytes).handleFrames crcKermit =
      let routed := protocol.route (bytes.parseFrames crcKermit).1
      (routed.1.withBytes (bytes.parseFrames crcKermit).2, routed.2) := by
  induction hlen : bytes.buffer.length using Nat.strongRecOn generalizing protocol bytes with
  | _ n ih =>
    have hboth := nextFrameInto_withBytes crcKermit protocol bytes
    match hnext : bytes.nextFrameInto crcKermit with
    | (none, bytes') =>
      rw [hnext] at hboth
      rw [handleFrames_of_none crcKermit hboth, parseFrames_of_none crcKermit hnext]
      rfl
    | (some data, bytes') =>
      rw [hnext] at hboth
      have hshorter := length_buffer_nextFrameInto crcKermit hnext
      rw [handleFrames_of_some crcKermit hboth, parseFrames_of_some crcKermit hnext]
      cases hparts : parseSpinelParts data with
      | error err =>
        have hframe : SpinelFrame.fromBytes data = .error err := by
          rw [SpinelFrame.fromBytes, hparts]
          rfl
        rw [hframe]
        exact ih _ (hlen ▸ hshorter) protocol bytes' rfl
      | ok parts =>
        obtain ⟨header, commandId, payload⟩ := parts
        have hframe : SpinelFrame.fromBytes data = .ok ⟨header, commandId, payload⟩ := by
          rw [SpinelFrame.fromBytes, hparts]
          rfl
        have hrest := ih _ (hlen ▸ hshorter)
          (protocol.handleInboundFrame header commandId payload).1 bytes' rfl
        rw [hframe]
        dsimp only
        rw [handleInboundFrame_withBytes, hrest]
        rfl

/-- The stream in pieces, one call of `handle_inbound_bytes` for each. -/
def handleChunks (protocol : SpinelProtocol) : List Bytes → SpinelProtocol × List SpinelDelivery
  | [] => (protocol, [])
  | chunk :: chunks =>
    let handled := protocol.handleInboundBytes crcKermit chunk
    let rest := handled.1.handleChunks chunks
    (rest.1, handled.2 ++ rest.2)

theorem route_append (protocol : SpinelProtocol) (frames frames' : List SpinelFrame) :
    protocol.route (frames ++ frames') =
      (((protocol.route frames).1.route frames').1,
        (protocol.route frames).2 ++ ((protocol.route frames).1.route frames').2) := by
  induction frames generalizing protocol with
  | nil => rfl
  | cons frame frames ih =>
    simp only [List.cons_append, route, ih, List.append_assoc]

theorem handleChunks_eq (chunks : List Bytes) (protocol bytes : SpinelProtocol) :
    (protocol.withBytes bytes).handleChunks crcKermit chunks =
      let routed := protocol.route (bytes.receive crcKermit chunks).1
      (routed.1.withBytes (bytes.receive crcKermit chunks).2, routed.2) := by
  induction chunks generalizing protocol bytes with
  | nil => rfl
  | cons chunk chunks ih =>
    have hfirst : (protocol.withBytes bytes).handleInboundBytes crcKermit chunk = _ :=
      handleFrames_eq crcKermit protocol { bytes with buffer := bytes.buffer ++ chunk }
    simp only [handleChunks, hfirst, ih, receive, route_append]
    rfl

/-- What is sent to the channels and what becomes of the requests depend on the stream alone, and
not on the pieces that it arrives in: the segments are decoded and routed in order. -/
theorem handleChunks_route (chunks : List Bytes) (protocol : SpinelProtocol)
    (hflag : HdlcSpecial.flag.byte ∉ protocol.buffer)
    (hruns : ∀ run ∈ protocol.runs chunks.flatten, run.length ≤ maxHdlcBufferSize) :
    let frames := (protocol.runs chunks.flatten).dropLast.filterMap (decodeSegment crcKermit)
    (protocol.handleChunks crcKermit chunks).2 = (protocol.route frames).2 ∧
      ∃ bytes, (protocol.handleChunks crcKermit chunks).1 =
        (protocol.route frames).1.withBytes bytes := by
  intro frames
  have hframes : (protocol.receive crcKermit chunks).1 = frames :=
    receive_eq crcKermit chunks protocol hflag hruns
  have hchunks : protocol.handleChunks crcKermit chunks = _ :=
    handleChunks_eq crcKermit chunks protocol protocol
  rw [hchunks, hframes]
  exact ⟨rfl, _, rfl⟩

end SpinelProtocol

/-! ## Frames that were encoded -/

/-- The bytes of a frame on the line. -/
def SpinelFrame.encoded (frame : SpinelFrame) : Bytes :=
  hdlcToBytesWithFlags crcKermit frame.toBytes

theorem decodeSegment_hdlcEscape {frame : SpinelFrame} (h : frame.Valid) :
    decodeSegment crcKermit (hdlcEscape crcKermit frame.toBytes) = some frame := by
  rw [decodeSegment, hdlcUnescape_hdlcEscape]
  change (SpinelFrame.fromBytes frame.toBytes).toOption = some frame
  rw [SpinelFrame.fromBytes_toBytes h]
  rfl

/-- Two flags in a row stand between two frames. -/
theorem cut_encoded (frames : List SpinelFrame) :
    cut HdlcSpecial.flag.byte (frames.flatMap (SpinelFrame.encoded crcKermit)) =
      (frames.flatMap fun frame => [[], hdlcEscape crcKermit frame.toBytes], []) := by
  induction frames with
  | nil => rfl
  | cons frame frames ih =>
    have hbytes : (frame :: frames).flatMap (SpinelFrame.encoded crcKermit) =
        [] ++ HdlcSpecial.flag.byte :: (hdlcEscape crcKermit frame.toBytes ++
          HdlcSpecial.flag.byte :: frames.flatMap (SpinelFrame.encoded crcKermit)) := by
      simp [SpinelFrame.encoded, hdlcToBytesWithFlags]
    rw [hbytes, cut_append_cons List.not_mem_nil, cut_append_cons (flag_notMem_hdlcEscape _ _), ih]
    rfl

theorem filterMap_decodeSegment_encoded {frames : List SpinelFrame}
    (h : ∀ frame ∈ frames, frame.Valid) :
    (frames.flatMap fun frame => [[], hdlcEscape crcKermit frame.toBytes]).filterMap
      (decodeSegment crcKermit) = frames := by
  induction frames with
  | nil => rfl
  | cons frame frames ih =>
    have hframe := decodeSegment_hdlcEscape crcKermit (h frame List.mem_cons_self)
    have hframes := ih fun other hother => h other (List.mem_cons_of_mem _ hother)
    change ([] :: hdlcEscape crcKermit frame.toBytes :: frames.flatMap _).filterMap _ = _
    rw [List.filterMap_cons_none rfl, List.filterMap_cons_some hframe, hframes]

/-- However the stream is cut into pieces, what comes out is what each segment behind the first
flag is by itself, and the frames that were encoded come out as they are. -/
theorem hdlc_stream_decoding :
    (∀ chunks : List Bytes,
      (∀ run ∈ (chunks.flatten.splitOn HdlcSpecial.flag.byte).tail,
        run.length ≤ maxHdlcBufferSize) →
      (SpinelProtocol.new.receive crcKermit chunks).1 =
        (chunks.flatten.splitOn HdlcSpecial.flag.byte).tail.dropLast.filterMap
          (decodeSegment crcKermit)) ∧
    (∀ data, HdlcSpecial.flag.byte ∉ hdlcEscape crcKermit data ∧
      hdlcUnescape crcKermit (hdlcEscape crcKermit data) = .ok data) ∧
    ∀ (frames : List SpinelFrame) (noise : Bytes) (chunks : List Bytes),
      (∀ frame ∈ frames, frame.Valid ∧
        (hdlcEscape crcKermit frame.toBytes).length ≤ maxHdlcBufferSize) →
      HdlcSpecial.flag.byte ∉ noise →
      chunks.flatten = noise ++ frames.flatMap (SpinelFrame.encoded crcKermit) →
      (SpinelProtocol.new.receive crcKermit chunks).1 = frames := by
  have hpieces (chunks : List Bytes)
      (hruns : ∀ run ∈ (chunks.flatten.splitOn HdlcSpecial.flag.byte).tail,
        run.length ≤ maxHdlcBufferSize) :
      (SpinelProtocol.new.receive crcKermit chunks).1 =
        (chunks.flatten.splitOn HdlcSpecial.flag.byte).tail.dropLast.filterMap
          (decodeSegment crcKermit) :=
    SpinelProtocol.receive_eq crcKermit chunks .new List.not_mem_nil hruns
  refine ⟨hpieces, fun data => ⟨flag_notMem_hdlcEscape crcKermit data,
    hdlcUnescape_hdlcEscape crcKermit data⟩, fun frames noise chunks hframes hnoise hchunks => ?_⟩
  -- the noise is in the first run only, which is not decoded
  obtain ⟨run, runs, hrun, hall⟩ :=
    exists_splitOn_append hnoise (frames.flatMap (SpinelFrame.encoded crcKermit))
  have hsplit : run :: runs =
      (frames.flatMap fun frame => [[], hdlcEscape crcKermit frame.toBytes]) ++ [[]] := by
    rw [← hrun, splitOn_eq, cut_encoded]
  have htail : (chunks.flatten.splitOn HdlcSpecial.flag.byte).tail = runs := by
    rw [hchunks, hall]
    rfl
  rw [hpieces chunks, htail]
  · cases frames with
    | nil =>
      cases hsplit
      rfl
    | cons frame frames =>
      obtain ⟨-, rfl⟩ := List.cons.inj hsplit
      change ((hdlcEscape crcKermit frame.toBytes :: frames.flatMap _) ++ [[]]).dropLast.filterMap
        _ = _
      rw [List.dropLast_concat]
      exact filterMap_decodeSegment_encoded crcKermit fun other hother => (hframes other hother).1
  · intro other hother
    rw [htail] at hother
    have hmem : other ∈ run :: runs := List.mem_cons_of_mem _ hother
    rw [hsplit, List.mem_append, List.mem_flatMap, List.mem_singleton] at hmem
    obtain ⟨frame, hframe, hmem⟩ | rfl := hmem
    · rw [List.mem_pair] at hmem
      obtain rfl | rfl := hmem
      · exact Nat.zero_le _
      · exact (hframes frame hframe).2
    · exact Nat.zero_le _

namespace Example

/-- The request of a test of the source: the NCP version. -/
def versionRequest : SpinelFrame where
  header := ⟨0b10, 0, 1⟩
  commandId := .propValueGet
  payload := [0x02]

/-- `CRC_KERMIT` before the inversion: the polynomial is `0x1021`, reflected. -/
def crc (data : Bytes) : UInt16 :=
  data.foldl (fun crc byte => Nat.repeat (fun crc =>
    if crc &&& 1 = 1 then (crc >>> 1) ^^^ 0x8408 else crc >>> 1) 8 (crc ^^^ byte.toUInt16)) 0xFFFF

theorem valid_versionRequest : versionRequest.Valid := ⟨⟨rfl, by decide, by decide⟩, nofun⟩

end Example

open Example in
/-- Noise, and the same request twice, byte by byte; and a request in pieces with a wrong CRC and
with the right one. -/
theorem hdlc_stream_decoding_bytes :
    ((SpinelProtocol.new.receive crc (([0x55, 0x7D] ++
      [versionRequest, versionRequest].flatMap (SpinelFrame.encoded crc)).map
        fun byte => [byte])).1 = [versionRequest, versionRequest]) ∧
    (SpinelProtocol.new.receive crc [[0x7E], [0x81, 0x02, 0x02, 0x5E, 0x81], [0x7E, 0x81],
      [0x02, 0x02, 0x5E, 0x80, 0x7E]]).1 = [versionRequest] := by
  obtain ⟨hpieces, -, hframes⟩ := hdlc_stream_decoding crc
  constructor
  · refine hframes _ [0x55, 0x7D] _ (fun frame hframe => ?_) (by decide) (by decide +kernel)
    rw [List.mem_pair, or_self] at hframe
    subst hframe
    exact ⟨valid_versionRequest, by decide +kernel⟩
  · rw [hpieces _ (by decide)]
    decide +kernel

end Ziggurat

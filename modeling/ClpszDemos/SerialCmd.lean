import ClpszDemos.ByteMemory

/-!
# The serial command protocol

A packet is a header of two bytes `@>`, its length, its checksum, a sequence
number and a command, followed by the payload.  `ser_cmd_rcv` assembles
packets byte by byte, in static variables that live on between two bytes.  A
packet whose command has bit 7 set is a reply for the sender, the others are
commands, which are answered at once.
-/

namespace ClpszDemos

namespace Serial

/-! ## Packets in memory -/

inductive ErrCode
  | ok | err | sum | fmt | ver | nomem | noans | busy | notimplement
  deriving DecidableEq, Repr

def ErrCode.val : ErrCode → UInt8
  | ok => 0
  | err => 1
  | sum => 2
  | fmt => 3
  | ver => 4
  | nomem => 5
  | noans => 6
  | busy => 7
  | notimplement => 8

def replyMask : UInt8 := 0x80

def macHead : Block := [0x40, 0x3e]

/-- The size of a `MAC_HDR`, a `TRANS_HDR` and an `APP_HDR`, which is the
offset of the payload as well. -/
def hdrLen : ℕ := 6

/-- The offsets of the fields of a `PKT`. -/
def lenOffset : ℕ := 2
def checkSumOffset : ℕ := 3
def snOffset : ℕ := 4
def cmdOffset : ℕ := 5

def serCalcChecksum (pkt : Block) : Except Trap UInt8 := do
  let len ← pkt.load lenOffset
  let sum ← (List.range len.toNat).foldlM (fun sum i => do
    return sum ^^^ (← pkt.load i)) 0
  return sum ^^^ (← pkt.load checkSumOffset)

def macParse (pkt : Block) : Except Trap ErrCode := do
  let first ← pkt.load 0
  let second ← pkt.load 1
  if [first, second] ≠ macHead then return .fmt
  else
    let sum ← serCalcChecksum pkt
    let checkSum ← pkt.load checkSumOffset
    if sum ≠ checkSum then return .sum else return .ok

/-- `HDR_LEN + len` is cut to the eight bits of the length field. -/
def buildPkt (cmd sn : UInt8) (pkt : Block) (pktData : Option Block)
    (len : UInt32) : Except Trap Block := do
  let pkt ← pkt.memcpy 0 macHead 2
  let pkt ← pkt.store lenOffset (6 + len).toUInt8
  let pkt ← pkt.store snOffset sn
  let pkt ← pkt.store cmdOffset cmd
  let pkt ← match pktData with
    | some data => pkt.memcpy hdrLen data len.toNat
    | none => .ok pkt
  let sum ← serCalcChecksum pkt
  pkt.store checkSumOffset sum

/-! ## The command handlers -/

/-- A handler gets the payload and its length; it returns the block of its
answer, a length byte and that many bytes. -/
abbrev CmdFunc : Type := Allocator → Block → UInt32 → Heap →
  Except Trap (ErrCode × Option ℕ × Heap)

/-- The four handlers allocate an answer with room for its text, and copy
`count` bytes of it. -/
def answerWith (alloc : Allocator) (room : ℕ) (len : UInt8) (text : Block)
    (count : ℕ) (heap : Heap) :
    Except Trap (ErrCode × Option ℕ × Heap) := do
  match heap.malloc alloc (1 + room) with
  | (none, heap) => return (.nomem, none, heap)
  | (some p, heap) =>
      let pktData ← heap.block (some p)
      let pktData ← pktData.store 0 len
      let pktData ← pktData.memcpy 1 text count
      return (.ok, some p, heap.update (some p) pktData)

def textBytes (text : String) : Block :=
  text.toList.map fun c => UInt8.ofNat c.toNat

def cString (text : String) : Block :=
  textBytes text ++ [0]

def serCmdDiscover : CmdFunc := fun alloc _ _ heap =>
  answerWith alloc 20 8 (cString "discover") 9 heap

def serCmdSend05 : CmdFunc := fun alloc _ _ heap =>
  answerWith alloc 1 1 [5] 1 heap

def serCmdNotimplement : CmdFunc := fun alloc _ _ heap =>
  answerWith alloc 20 12 (cString "notimplement") 13 heap

def serCmdEchoBack : CmdFunc := fun alloc input len heap =>
  answerWith alloc len.toNat len.toUInt8 input len.toNat heap

structure CmdFunMap where
  cmd : UInt8
  func : Option CmdFunc

def serRcvcmdFuncs : List CmdFunMap :=
  [⟨0x01, some serCmdDiscover⟩, ⟨0x02, some serCmdSend05⟩,
    ⟨0x61, some serCmdEchoBack⟩, ⟨0x7f, some serCmdNotimplement⟩,
    ⟨0x00, none⟩]

def cmdNpIndex : ℤ := 3

/-- The loop of `_find_handler` at entry `i` of the map. -/
def findHandlerFrom (cmd : UInt8) :
    List CmdFunMap → ℕ → Except Trap ℤ
  | [], _ => .error .bounds
  | entry :: map, i =>
      if entry.cmd = cmd then .ok i
      else if entry.cmd = 0 ∧ entry.func.isNone then .ok (-1)
      else findHandlerFrom cmd map (i + 1)

def findHandler (map : List CmdFunMap) (cmd : UInt8) : Except Trap ℤ :=
  findHandlerFrom cmd map 0

/-! ## The machine -/

/-- What is handed to `ser_hal_tellsend` or to `ser_cmd_dealcmd`. -/
inductive Delivery
  | tellsend (pkt : Block)
  | dealcmd (pkt : Block)
  deriving DecidableEq, Repr

/-- The memory, the static variables of `ser_cmd_rcv` and of the hardware
layer, the frames given to `ser_hal_write`, and, for the statements only,
what was delivered so far. -/
structure Machine where
  heap : Heap
  head : Vector UInt8 4
  buf : Option ℕ
  pktLen : UInt8
  i : UInt8
  repliedPkt : Option ℕ
  replied : UInt8
  written : List Block
  delivered : List Delivery

/-- Reading `len` bytes of a block, to write or to print them. -/
def readBytes (block : Block) (len : ℕ) : Except Trap Block :=
  if len ≤ block.length then .ok (block.take len) else .error .bounds

def serHalWrite (buf : Block) (len : UInt32) (m : Machine) :
    Except Trap Machine := do
  let frame ← readBytes buf len.toNat
  return { m with written := m.written ++ [frame] }

def serHalTellsend (pkt : Option ℕ) (m : Machine) : Machine :=
  { m with repliedPkt := pkt, replied := 1 }

def serCmdReply (alloc : Allocator) (pkt : Option ℕ) (cmd : UInt8)
    (pktData : Option Block) (len : UInt32) (m : Machine) :
    Except Trap (ErrCode × Machine) := do
  match pkt with
  | none => return (.err, m)
  | some p =>
      match m.heap.malloc alloc (6 + len).toNat with
      | (none, heap) => return (.nomem, { m with heap := heap })
      | (some q, heap) =>
          let request ← heap.block (some p)
          let sn ← request.load snOffset
          let newPkt ← heap.block (some q)
          let newPkt ← buildPkt cmd sn newPkt pktData len
          let heap := heap.update (some q) newPkt
          let size ← newPkt.load lenOffset
          let m ← serHalWrite newPkt size.toUInt32 { m with heap := heap }
          let heap ← m.heap.free (some q)
          return (.ok, { m with heap := heap })

/-- The function that `ser_cmd_dealcmd` calls for a command. -/
def chooseFun (cmd : UInt8) : Except Trap CmdFunc := do
  let found ← findHandler serRcvcmdFuncs cmd
  let funIndex := if found < 0 then cmdNpIndex else found
  match serRcvcmdFuncs[funIndex.toNat]? with
  | none => throw Trap.bounds
  | some entry =>
      match entry.func with
      | none => throw Trap.nullCall
      | some func => return func

/-- The answer of a handler, which can be NULL. -/
def replyData (alloc : Allocator) (pkt : Option ℕ) (cmd : UInt8)
    (dataOut : Option ℕ) (m : Machine) : Except Trap (ErrCode × Machine) :=
  match dataOut with
  | none => serCmdReply alloc pkt cmd none 0 m
  | some _ => do
      let answer ← m.heap.block dataOut
      let len ← answer.load 0
      serCmdReply alloc pkt cmd (some (answer.drop 1)) len.toUInt32 m

/-- `_dump` prints the whole packet; the length is `PKT_DATALEN(pkt)`. -/
def serCmdDealcmd (alloc : Allocator) (pkt : Option ℕ) (m : Machine) :
    Except Trap (ErrCode × Machine) := do
  match pkt with
  | none => return (.err, m)
  | some p =>
      let bytes ← m.heap.block (some p)
      let len ← bytes.load lenOffset
      let _ ← readBytes bytes len.toNat
      let cmd ← bytes.load cmdOffset
      let func ← chooseFun cmd
      let (resCode, dataOut, heap) ←
        func alloc (bytes.drop hdrLen) (len.toUInt32 - 6) m.heap
      let dataOut := if resCode = .ok then dataOut else none
      let (_, m) ← replyData alloc (some p) (resCode.val ||| replyMask)
        dataOut { m with heap := heap }
      let heap ← m.heap.free dataOut
      return (.ok, { m with heap := heap })

/-! ## The receiver -/

/-- The third header byte: the length of the packet. -/
def rcvLen (alloc : Allocator) (ch : UInt8) (m : Machine) :
    Except Trap Machine := do
  let m := { m with pktLen := ch }
  if ch.toNat < hdrLen then return { m with i := 0 }
  else
    match m.heap.malloc alloc ch.toNat with
    | (none, heap) => return { m with heap := heap, buf := none, i := 0 }
    | (some p, heap) =>
        let block ← heap.block (some p)
        let block ← block.memcpy 0 m.head.toList 3
        return { m with
          heap := heap.update (some p) block
          buf := some p
          i := m.i + 1 }

/-- A whole packet is in the buffer. -/
def rcvPkt (alloc : Allocator) (m : Machine) : Except Trap Machine := do
  let pkt ← m.heap.block m.buf
  match ← macParse pkt with
  | .ok =>
      let cmd ← pkt.load cmdOffset
      if cmd &&& replyMask ≠ 0 then
        let m := serHalTellsend m.buf
          { m with delivered := m.delivered ++ [.tellsend pkt] }
        return { m with i := 0, buf := none }
      else
        let (_, m) ← serCmdDealcmd alloc m.buf
          { m with delivered := m.delivered ++ [.dealcmd pkt] }
        let heap ← m.heap.free m.buf
        return { m with heap := heap, i := 0, buf := none }
  | _ =>
      let heap ← m.heap.free m.buf
      return { m with heap := heap, i := 0 }

/-- One turn of the loop of `ser_cmd_rcv`, with the byte it has read. -/
def rcvByte (alloc : Allocator) (m : Machine) (ch : UInt8) :
    Except Trap Machine :=
  if m.i ≤ 2 then
    if h : m.i.toNat < 4 then do
      let m := { m with head := m.head.set m.i.toNat ch h }
      if m.i ≤ 1 then
        let expected ← macHead.load m.i.toNat
        if ch ≠ expected then return { m with i := 0 }
        else return { m with i := m.i + 1 }
      else rcvLen alloc ch m
    else .error .bounds
  else do
    let block ← m.heap.block m.buf
    let block ← block.store m.i.toNat ch
    let m := { m with heap := m.heap.update m.buf block }
    if (m.i.toNat : ℤ) = m.pktLen.toNat - 1 then rcvPkt alloc m
    else return { m with i := m.i + 1 }

/-- `ser_cmd_rcv` while these bytes come in. -/
def serCmdRcv (alloc : Allocator) (bytes : List UInt8) (m : Machine) :
    Except Trap Machine :=
  bytes.foldlM (rcvByte alloc) m

end Serial

end ClpszDemos

import DevMgr.Framing
import DevMgr.SockIo
/-!
# TransStreamHandler — the PDU encoder and the resumable decoder

`TransStreamHandler.cpp` over `TransHandler.cpp`: `sendPDU` writes a header in front of a body, `onRecvReady` receives
once into `_biRecvBuf` and moves bytes to `_biRecv` until a header and its body are there, for each PDU calling
`ProcessPDU` (`pdus` are the calls of the current session).  `EndSession` sets `_bSessionEnd` and suspends the transport
(`bIgnore`, the `_bIgnore` of its `TransSockInst`), after which the mux thread delivers nothing more.

`OnStarted` is virtual: `MsgServerHandler::OnStarted` calls `TransStreamHandler::OnStarted`, which empties `_biRecv`;
`MyMsgClient::OnStarted` replaces it and does not.
-/
namespace DevMgr

open Framing

structure Pdu where
  hdr : PduCommHdr
  body : List BYTE
  deriving DecidableEq, Repr

structure TransStreamHandler where
  biRecv : BufferItem
  biRecvBuf : BufferItem
  bSessionEnd : Bool
  bIgnore : Bool
  pdus : List Pdu
  deriving DecidableEq

/-- The classes that inherit the decoder. -/
inductive HandlerClass where
  | msgServerHandler
  | myMsgClient
  deriving DecidableEq, Repr

namespace TransStreamHandler

def new : TransStreamHandler :=
  { biRecv := .new, biRecvBuf := .new, bSessionEnd := false, bIgnore := false, pdus := [] }

def endSession (h : TransStreamHandler) : TransStreamHandler := { h with bSessionEnd := true, bIgnore := true }

def init (h : TransStreamHandler) (fresh : Nat → BYTE) : Except Assertion TransStreamHandler :=
  match h.biRecv.alloc (pduMaxLength + pduHeadReserve) fresh with
  | .error e => .error e
  | .ok b => match h.biRecvBuf.alloc (pduMaxLength * 2 + pduHeadReserve) fresh with
    | .error e => .error e
    | .ok c => .ok { h with biRecv := b, biRecvBuf := c }

/-- The `OnStarted` that runs in an object of the class. -/
def onStarted (h : TransStreamHandler) : HandlerClass → Except Assertion TransStreamHandler
  | .msgServerHandler => match h.biRecv.reset pduHeadReserve with
    | .error e => .error e
    | .ok b => .ok { h with biRecv := b }
  | .myMsgClient => .ok h

/-- `TransSockInst::Start` of the session's new transport. -/
def start (h : TransStreamHandler) (cls : HandlerClass) : Except Assertion TransStreamHandler :=
  match h.onStarted cls with
  | .error e => .error e
  | .ok h' => .ok { h' with bIgnore := false, pdus := [] }

/-- `memcpy(_biRecv.Put(nBytes), _biRecvBuf.data(), nBytes); _biRecvBuf.Pull(nBytes);` -/
def takeBytes (h : TransStreamHandler) (nBytes : Nat) : Except Assertion TransStreamHandler :=
  match h.biRecv.putBytes (h.biRecvBuf.content.take nBytes) with
  | .error e => .error e
  | .ok b => match h.biRecvBuf.pull nBytes with
    | .error e => .error e
    | .ok c => .ok { h with biRecv := b, biRecvBuf := c }

/-- What `ProcessPDU` is given: the header with its size and parameter in host order, and the body behind it. -/
def hostPdu (pHdr : PduCommHdr) (body : List BYTE) : Pdu :=
  { hdr := { pHdr with wBodySize := ntohs pHdr.wBodySize, dwParam := ntohl pHdr.dwParam }, body }

/-- The tail of the loop: the converted header and the body go to `ProcessPDU`, then `_biRecv` is reset. -/
def deliver (h : TransStreamHandler) (pHdr : PduCommHdr) : Except Assertion TransStreamHandler :=
  match h.biRecv.pull sizeofPduCommHdr with
  | .error e => .error e
  | .ok b => match b.reset pduHeadReserve with
    | .error e => .error e
    | .ok b' =>
      .ok { h with biRecv := b', pdus := h.pdus ++ [hostPdu pHdr (b.content.take (ntohs pHdr.wBodySize).toNat)] }

theorem takeBytes_dataLen {h h' : TransStreamHandler} {n : Nat} (hs : h.takeBytes n = .ok h') :
    h'.biRecvBuf.dataLen = h.biRecvBuf.dataLen - n := by
  unfold takeBytes BufferItem.pull at hs
  split at hs
  · cases hs
  · split at hs
    · cases hs
    · rename_i hp
      split at hp
      · cases hp
      · cases hp
        cases hs
        rfl

theorem deliver_dataLen {h h' : TransStreamHandler} {p : PduCommHdr} (hs : h.deliver p = .ok h') :
    h'.biRecvBuf = h.biRecvBuf ∧ h'.biRecv.dataLen = 0 := by
  unfold deliver at hs
  split at hs
  · cases hs
  · split at hs
    · cases hs
    · rename_i hp
      unfold BufferItem.reset at hp
      split at hp
      · cases hp
        cases hs
        exact ⟨rfl, rfl⟩
      · cases hp

/-- The `while ( true )` of `OnRecvReady`. -/
def recvLoop (h : TransStreamHandler) : Except Assertion TransStreamHandler :=
  if h.biRecv.dataSize < sizeofPduCommHdr then
    if h.biRecvBuf.dataSize = 0 then .ok h
    else match _ht : h.takeBytes (min (sizeofPduCommHdr - h.biRecv.dataSize) h.biRecvBuf.dataSize) with
      | .error e => .error e
      | .ok h' => recvLoop h'
  else
    let pHdr := hdrAt h.biRecv.content
    if pHdr.dwMagic ≠ htonl pduMagicNum then .ok h.endSession
    else
      let nSize := h.biRecv.dataSize - sizeofPduCommHdr
      let wBodySize := (ntohs pHdr.wBodySize).toNat
      if nSize < wBodySize then
        if h.biRecvBuf.dataSize = 0 then .ok h
        else match _ht : h.takeBytes (min (wBodySize - nSize) h.biRecvBuf.dataSize) with
          | .error e => .error e
          | .ok h' => recvLoop h'
      else match _hd : h.deliver pHdr with
        | .error e => .error e
        | .ok h' => recvLoop h'
termination_by (h.biRecvBuf.dataLen, h.biRecv.dataLen)
decreasing_by
  · apply Prod.Lex.left
    rw [takeBytes_dataLen _ht]
    simp only [BufferItem.dataSize] at *
    omega
  · apply Prod.Lex.left
    rw [takeBytes_dataLen _ht]
    simp only [BufferItem.dataSize] at *
    omega
  · obtain ⟨hbuf, hlen⟩ := deliver_dataLen _hd
    rw [hbuf, hlen]
    apply Prod.Lex.right
    simp only [BufferItem.dataSize, sizeofPduCommHdr] at *
    omega

def onRecvReady (h : TransStreamHandler) (r : RecvRes) : Except Assertion TransStreamHandler :=
  match h.biRecvBuf.reset 0 with
  | .error e => .error e
  | .ok b => match recv b r with
    | .error e => .error e
    | .ok (b', dwRet) =>
      if dwRet ≠ errorSuccess then .ok { h with biRecvBuf := b' }.endSession
      else recvLoop { h with biRecvBuf := b' }

/-- The calls of `OnRecvReady` of one session: none after `EndSession`. -/
def session (h : TransStreamHandler) : List RecvRes → Except Assertion TransStreamHandler
  | [] => .ok h
  | r :: rs =>
    if h.bIgnore then .ok h
    else match h.onRecvReady r with
      | .error e => .error e
      | .ok h' => session h' rs

/-- `SendPDU` before its `Send`: the item with the header in front of its body. -/
def sendPDU (bCode : BYTE) (bReq bErr : Bool) (dwParam : DWORD) (b : BufferItem) : Except Assertion BufferItem :=
  match b.push sizeofPduCommHdr with
  | .error e => .error e
  | .ok (b', p) =>
    .ok (b'.write p (hdrBytes (htonl pduMagicNum) (htons (UInt16.ofNat (b'.dataSize - sizeofPduCommHdr)))
      bCode bReq bErr (htonl dwParam) (b'.mem.getD (p + 7) 0)))

end TransStreamHandler

/-- The format of the PDU stream. -/
def pduFormat : Format BYTE where
  hdrLen := sizeofPduCommHdr
  hdrPos := by decide
  valid h := (hdrAt h).dwMagic == htonl pduMagicNum
  bodyLen h := (ntohs (hdrAt h).wBodySize).toNat

/-- The `ProcessPDU` call of a frame. -/
def pduOf (f : List BYTE × List BYTE) : Pdu := TransStreamHandler.hostPdu (hdrAt f.1) f.2

end DevMgr

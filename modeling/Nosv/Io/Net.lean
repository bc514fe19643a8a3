import Nosv.Io.Transfer

/-!
# Completion-native TCP transfers

`recv` and `send` transfer once, `recv_exact` and `send_all` until the whole buffer is transferred.
Their SQEs have no file offset.
-/

namespace Nosv.Io.TcpStream

variable {B : Type}

/-- `complete` of a `RecvWork`. -/
def completeRecv [IoBufMut B] (item : Work B) (cqe : Received) : Finished B :=
  item.receive "kernel returned an oversized receive" cqe

/-- `complete` of a `SendWork`. -/
def completeSend (item : Work B) (cqe : ℤ) : Finished B :=
  item.send "kernel returned an oversized send" cqe

/-- Receives once into the start of the owned buffer. -/
def recv [IoBufMut B] (buf : B) (answer : Option (Answer Received)) : Progress ℕ B :=
  once (workAt bytesTotal none buf 0) completeRecv buf answer

/-- Receives until the entire writable allocation is filled. -/
def recvExact [IoBufMut B] (buf : B) (answers : List (Answer Received)) : Progress Unit B :=
  untilDone (bytesTotal buf) (workAt bytesTotal none) completeRecv
    (.new .unexpectedEof "connection closed early") answers buf 0

/-- Sends once from the initialized prefix of an owned buffer. -/
def send [IoBuf B] (buf : B) (answer : Option (Answer ℤ)) : Progress ℕ B :=
  once (workAt bytesInit none buf 0) completeSend buf answer

/-- Sends the entire initialized prefix of an owned buffer. -/
def sendAll [IoBuf B] (buf : B) (answers : List (Answer ℤ)) : Progress Unit B :=
  untilDone (bytesInit buf) (workAt bytesInit none) completeSend
    (.new .writeZero "failed to send buffer") answers buf 0

end Nosv.Io.TcpStream

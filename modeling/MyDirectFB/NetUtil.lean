/-
Connecting with a timeout (net/netutil.cpp).  The socket is made non-blocking
first and blocking again last, but not where the address is refused in between.
-/
import MyDirectFB.Lib.CString
import Mathlib.Data.BitVec

namespace MyDirectFB

namespace NetUtil

def POLL_SUCCESS : Int := 1
def POLL_INTERRUPTED : Int := 2
def POLL_TIMEOUT : Int := 0

def POLLIN : BitVec 16 := 0x0001
def POLLOUT : BitVec 16 := 0x0004
def POLLERR : BitVec 16 := 0x0008
def POLLHUP : BitVec 16 := 0x0010
def POLLNVAL : BitVec 16 := 0x0020
def POLLRDHUP : BitVec 16 := 0x2000

def O_NONBLOCK : BitVec 32 := 0x800

def EAGAIN : Int := 11
def EINPROGRESS : Int := 115

/-- What `poll` returns and fills, and the error that it sets. -/
structure PollOutcome where
  ret : Int
  errno : Int
  revents : BitVec 16
  reventsInt : BitVec 16
deriving Repr, DecidableEq

/-- `fd_poll`, where `poll` has the outcome. -/
def fdPoll (req : BitVec 16) (fd_int : Int) (poll : PollOutcome) : Int :=
  if poll.ret = 0 then POLL_TIMEOUT
  else if poll.ret < 0 then -poll.errno
  else if fd_int ≥ 0 ∧ poll.reventsInt &&& POLLIN ≠ 0 then POLL_INTERRUPTED
  else if poll.revents &&& (POLLRDHUP ||| POLLERR ||| POLLHUP ||| POLLNVAL) ≠ 0 then -1
  else if poll.revents &&& req ≠ 0 then POLL_SUCCESS
  else -1

/-- `socket_set_blocking`: the status flags afterwards, where `fcntl` succeeds. -/
def socketSetBlocking (block : Bool) (flags : BitVec 32) : BitVec 32 :=
  if block then flags &&& (O_NONBLOCK ^^^ 0xFFFFFFFF)
  else flags ||| O_NONBLOCK

/-- What the calls in `connect2` give. -/
structure ConnectOutcome where
  inetPton : CString → Int
  connect : Int
  errno : Int
  poll : PollOutcome

/-- `connect2`: the result, and the status flags of the socket. -/
def connect2 (outcome : ConnectOutcome) (ipaddr : CString) (fd_int : Int)
    (flags : BitVec 32) : Int × BitVec 32 :=
  let flags := socketSetBlocking false flags
  if outcome.inetPton ipaddr ≤ 0 then (-1, flags)
  else
    -- The result of `connect` is only written down, and then overwritten.
    let _ret := if 0 < outcome.errno ∧ outcome.errno ≠ EAGAIN ∧
      outcome.errno ≠ EINPROGRESS then -1 else outcome.connect
    let ret := fdPoll POLLOUT fd_int outcome.poll
    let ret := if ret = POLL_SUCCESS then 0 else -1
    (ret, socketSetBlocking true flags)

/-- The socket is blocking, its other flags are as before, and the result is 0 only
if it can be written to. -/
structure Restores (outcome : ConnectOutcome) (fd_int : Int) (before : BitVec 32)
    (result : Int × BitVec 32) : Prop where
  blocking : result.2 &&& O_NONBLOCK = 0
  others : result.2 &&& ~~~O_NONBLOCK = before &&& ~~~O_NONBLOCK
  success : result.1 = 0 → fdPoll POLLOUT fd_int outcome.poll = POLL_SUCCESS

variable {flags : BitVec 32}

theorem socketSetBlocking_true :
    socketSetBlocking true flags = flags &&& ~~~O_NONBLOCK := rfl

theorem nonblocking (flags : BitVec 32) :
    socketSetBlocking false flags &&& O_NONBLOCK = O_NONBLOCK := by
  ext i
  simp [socketSetBlocking]
  tauto

theorem blocking (flags : BitVec 32) :
    socketSetBlocking true flags &&& O_NONBLOCK = 0 := by
  rw [socketSetBlocking_true, BitVec.and_assoc, BitVec.not_and_self]
  exact BitVec.and_zero

/-- Only `O_NONBLOCK` is changed. -/
theorem socketSetBlocking_others (block : Bool) (flags : BitVec 32) :
    socketSetBlocking block flags &&& ~~~O_NONBLOCK = flags &&& ~~~O_NONBLOCK := by
  cases block with
  | true => rw [socketSetBlocking_true, BitVec.and_assoc, BitVec.and_self]
  | false =>
      change (flags ||| O_NONBLOCK) &&& ~~~O_NONBLOCK = _
      rw [BitVec.and_or_distrib_right, BitVec.and_not_self]
      exact BitVec.or_zero

end NetUtil

/-- The socket is left as it should be exactly if `inet_pton` takes the address. -/
theorem connect2_restores_iff (outcome : NetUtil.ConnectOutcome) (ipaddr : CString)
    (fd_int : Int) (flags : BitVec 32) :
    NetUtil.Restores outcome fd_int flags
        (NetUtil.connect2 outcome ipaddr fd_int flags) ↔
      0 < outcome.inetPton ipaddr := by
  rw [NetUtil.connect2]
  by_cases haddress : outcome.inetPton ipaddr ≤ 0
  · rw [if_pos haddress]
    refine iff_of_false (fun hrestores => ?_) (by omega)
    have hblocking := hrestores.blocking
    rw [NetUtil.nonblocking] at hblocking
    exact absurd hblocking (by decide)
  · rw [if_neg haddress]
    refine iff_of_true ⟨NetUtil.blocking _, ?_, fun hsuccess => ?_⟩ (by omega)
    · rw [NetUtil.socketSetBlocking_others, NetUtil.socketSetBlocking_others]
    · by_contra hother
      simp only [hother, ↓reduceIte] at hsuccess
      exact absurd hsuccess (by decide)

/-- An address that is refused leaves the socket non-blocking. -/
theorem connect2_refused :
    ¬ NetUtil.Restores ⟨fun _ => 0, -1, 0, ⟨0, 0, 0, 0⟩⟩ (-1) 0x2
      (NetUtil.connect2 ⟨fun _ => 0, -1, 0, ⟨0, 0, 0, 0⟩⟩ (.ofMemory [0]) (-1) 0x2) :=
  fun hrestores => absurd hrestores.blocking (by decide)

end MyDirectFB

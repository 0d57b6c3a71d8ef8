/-
The server of the device description (net/ssdp/web.cpp).  The handler accepts a
connection and then receives from the descriptor that it is called with, which is
the listening one, so that no request is ever read.
-/
import MyDirectFB.Lib.Tokens
import MyDirectFB.StringFunctions
import MyDirectFB.Trim

namespace MyDirectFB

namespace WEB

/-- The listening socket, and the one that `accept` returns. -/
structure Sockets where
  mSock : Nat
  clntSock : Nat
  distinct : clntSock ≠ mSock
deriving Repr, DecidableEq

/-- A call on a socket. -/
inductive Call where
  | recv (fd : Nat)
  | send (fd : Nat) (bytes : List UInt8)
  | shutdown (fd : Nat)
  | close (fd : Nat)
deriving Repr, DecidableEq

/-- A null pointer is compared. -/
inductive Fault where
  | nullToken
deriving Repr, DecidableEq

def LOCATION_DESC : List UInt8 := ascii "/dd.xml"

def MSG_400_BAD_REQUEST : List UInt8 := ascii "HTTP/1.1 400 Bad Request\r\n"

def MSG_404_NOT_FOUND : List UInt8 := ascii "HTTP/1.1 404 Not Found\r\n"

def head : List UInt8 :=
  ascii "HTTP/1.1 200 OK\r\nContent-Type: text/xml\r\nConnection: close\r\n\r\n"

/-- `FMT_DD_XML` with the names of the device. -/
def description : List UInt8 :=
  ascii "<?xml version=\"1.0\"?><root xmlns=\"urn:schemas-upnp-org:device-1-0\"" ++
    ascii " xmlns:r=\"urn:restful-tv-org:schemas:upnp-dd\"> <specVersion>" ++
    ascii " <major>1</major> <minor>0</minor> </specVersion> <device>" ++
    ascii " <deviceType>urn:schemas-upnp-org:device:tvdevice:1</deviceType>" ++
    ascii " <friendlyName>Myohancat</friendlyName>" ++
    ascii " <manufacturer>myocat.iptime.org</manufacturer>" ++
    ascii " <modelName>Myocat</modelName>" ++
    ascii " <UDN>uuid:deadbeef-dead-beef-dead-beefdeadbeef</UDN> </device></root>"

/-- The delimiters `" \t"`. -/
def isBlank (c : UInt8) : Bool := c = 32 || c = 9

/-- The delimiters `" \t\r\n"`. -/
def isBlankOrEnd (c : UInt8) : Bool := isBlank c || c = 13 || c = 10

/-- `sendResponse`. -/
def sendResponse (sock : Nat) : List Call :=
  [.send sock head, .send sock (description.take (2048 - 1))]

/-- What follows a request that was received, up to the label `EXIT`. -/
def respond (clntSock : Nat) (msg : List UInt8) : Except Fault (List Call) :=
  match Tokens.strtokOf isBlankOrEnd msg with
  | none => .error .nullToken
  | some (method, rest) =>
      -- Four characters are compared, so that the NUL is one of them.
      if !strncmpEq method (ascii "GET") 4 then .ok []
      else
        let path := Tokens.strtokOf isBlank rest
        let rest := match path with
          | none => []
          | some (_, rest) => rest
        match path, Tokens.strtokOf isBlankOrEnd rest with
        | some (path, _), some (version, _) =>
            if !strncmpEq version (ascii "HTTP/1.0") 8 &&
                !strncmpEq version (ascii "HTTP/1.1") 8 then
              .ok [.send clntSock MSG_400_BAD_REQUEST]
            else if trim path ≠ LOCATION_DESC then
              .ok [.send clntSock MSG_404_NOT_FOUND]
            else .ok (sendResponse clntSock)
        | _, _ => .error .nullToken

/-- What `recv` gives: the request on the connection, and an error on the listening
socket, which is not connected. -/
def received (s : Sockets) (request : CString) (fd : Nat) : Option (List UInt8) :=
  if fd = s.clntSock then some request.bytes else none

/-- `onFdReadable(fd)` after `accept`: the calls that are made. -/
def onFdReadable (s : Sockets) (request : CString) (fd : Nat) :
    Except Fault (List Call) :=
  match received s request fd with
  | none => .ok [.recv fd, .shutdown s.clntSock, .close s.clntSock]
  | some msg => do
      let calls ← respond s.clntSock msg
      .ok (.recv fd :: (calls ++ [.close s.clntSock]))

def getFD (s : Sockets) : Nat := s.mSock

/-- The call of the event loop. -/
def dispatch (s : Sockets) (request : CString) : Except Fault (List Call) :=
  onFdReadable s request (getFD s)

/-! ### What a request is answered with -/

/-- The words of the first line of a request. -/
def requestLine (request : CString) : List (List UInt8) :=
  ((request.bytes.takeWhile fun c => c ≠ 13 && c ≠ 10).splitOnP isBlank).filter
    (· ≠ [])

/-- What is sent for a request line. -/
def answer : List (List UInt8) → List (List UInt8)
  | [] => []
  | method :: words =>
      if method ≠ ascii "GET" then []
      else
        match words with
        | [path, version] =>
            if version ∉ [ascii "HTTP/1.0", ascii "HTTP/1.1"] then
              [MSG_400_BAD_REQUEST]
            else if path = LOCATION_DESC then [head, description]
            else [MSG_404_NOT_FOUND]
        | _ => [MSG_400_BAD_REQUEST]

/-- The bytes that are sent to a socket. -/
def sentTo (fd : Nat) (calls : List Call) : List (List UInt8) :=
  calls.filterMap fun
    | .send sock bytes => if sock = fd then some bytes else none
    | _ => none

/-- The request is read from the connection and answered there, and the connection
is closed once. -/
structure Serves (s : Sockets) (request : CString) (calls : List Call) : Prop where
  reads : .recv s.clntSock ∈ calls
  answers : sentTo s.clntSock calls = answer (requestLine request)
  closes : calls.count (.close s.clntSock) = 1

/-- Whatever is requested, nothing is read from the connection and nothing sent. -/
theorem dispatch_eq (s : Sockets) (request : CString) :
    dispatch s request =
      .ok [.recv s.mSock, .shutdown s.clntSock, .close s.clntSock] := by
  rw [dispatch, onFdReadable, received, getFD, if_neg s.distinct.symm]

end WEB

/-- No request is served. -/
theorem webRequest_never_served (s : WEB.Sockets) (request : CString) :
    ¬ ∃ calls, WEB.dispatch s request = .ok calls ∧ WEB.Serves s request calls := by
  rintro ⟨calls, hcalls, hserves⟩
  rw [WEB.dispatch_eq] at hcalls
  obtain rfl := Except.ok.inj hcalls
  have hreads := hserves.reads
  simp only [List.mem_cons, WEB.Call.recv.injEq, reduceCtorEq, List.not_mem_nil,
    or_self, or_false] at hreads
  exact s.distinct hreads

namespace WEB

theorem four_ne_three : (4 : Nat) ≠ 3 := by decide

def sockets : Sockets := ⟨3, 4, four_ne_three⟩

def ddRequest : CString := .ofMemory (ascii "GET /dd.xml HTTP/1.1\r\n")

end WEB

/-- The description is asked for and not sent. -/
theorem ddRequest_not_answered :
    WEB.answer (WEB.requestLine WEB.ddRequest) = [WEB.head, WEB.description] ∧
      ¬ ∃ calls, WEB.dispatch WEB.sockets WEB.ddRequest = .ok calls ∧
        WEB.Serves WEB.sockets WEB.ddRequest calls := by
  have hline : WEB.requestLine WEB.ddRequest =
      [ascii "GET", ascii "/dd.xml", ascii "HTTP/1.1"] := by
    decide
  have hanswer : WEB.answer (WEB.requestLine WEB.ddRequest) =
      [WEB.head, WEB.description] := by
    rw [hline]
    rfl
  refine ⟨hanswer, ?_⟩
  rintro ⟨calls, hcalls, hserves⟩
  rw [WEB.dispatch_eq] at hcalls
  obtain rfl := Except.ok.inj hcalls
  have hnothing : ([] : List (List UInt8)) = [WEB.head, WEB.description] :=
    hserves.answers.trans hanswer
  exact absurd hnothing (List.cons_ne_nil _ _).symm

end MyDirectFB

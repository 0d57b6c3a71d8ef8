/-
Key events and their repeats (input/input_manager.cpp): the thread of
`InputManager::run`, which reads the events of all devices, and the thread of
`mRepeatTimer`, which calls `onTimerExpired`.  Every access to `mLastKeyCode`
and every write to the pipe is one step.  The descriptors, the devices and the
raw key listener have no part in it; a key code is any `int`.
-/
import MyDirectFB.TimerThread

namespace MyDirectFB

inductive KeyState where
  | KEY_RELEASED
  | KEY_PRESSED
  | KEY_REPEATED
deriving Repr, DecidableEq

/-- What is written to the pipe: `keyValue`. -/
structure KeyEvent where
  code : Int32
  state : KeyState
deriving Repr, DecidableEq

/-- Where the reader is in the handling of a key event. -/
inductive KeyReaderPc where
  | idle
  /-- In `mRepeatTimer.start(700, true)`. -/
  | inStart (code : Int32)
  /-- In `mRepeatTimer.stop()`. -/
  | inStop (code : Int32)
  | atWrite (key : KeyEvent)
deriving Repr, DecidableEq

/-- Where a worker of the timer is in `onTimerExpired`. -/
inductive ExpiredPc where
  | atCheck
  | atSetInterval
  | atKeyCode
  | atWrite (code : Int32)
  | returned
deriving Repr, DecidableEq

/-- The part of `InputManager` that repeats keys.  `pipe` is all that has been
written to it. -/
structure InputManager where
  mRepeatTimer : TimerThread
  mLastKeyCode : Int32
  pipe : List KeyEvent
  reader : KeyReaderPc
  expired : Nat → ExpiredPc

namespace InputManager

def init (startTime clock : UInt64) : InputManager where
  mRepeatTimer := TimerThread.init true startTime clock
  mLastKeyCode := -1
  pipe := []
  reader := .idle
  expired _ := .atCheck

def setTimer (s : InputManager) (timer : TimerThread) : InputManager :=
  { s with mRepeatTimer := timer }

def setExpired (s : InputManager) (w : Nat) (pc : ExpiredPc) : InputManager :=
  { s with expired := Function.update s.expired w pc }

/-- An `EV_KEY` event with the value of `key.state` has been read. -/
def readKey (s : InputManager) (key : KeyEvent) : Option InputManager :=
  match s.reader with
  | .idle =>
      match key.state with
      | .KEY_PRESSED =>
          (s.mRepeatTimer.step (.start ⟨700, true⟩)).map fun timer =>
            { s.setTimer timer with reader := .inStart key.code }
      | .KEY_RELEASED =>
          (s.mRepeatTimer.step .stop).map fun timer =>
            { s.setTimer timer with reader := .inStop key.code }
      | .KEY_REPEATED => some { s with reader := .atWrite key }
  | _ => none

/-- `start` or `stop` has returned, and `mLastKeyCode` is assigned. -/
def setLastKeyCode (s : InputManager) : Option InputManager :=
  match s.mRepeatTimer.caller, s.reader with
  | .idle _, .inStart code =>
      some { s with
        mLastKeyCode := code
        reader := .atWrite ⟨code, .KEY_PRESSED⟩ }
  | .idle _, .inStop code =>
      some { s with
        mLastKeyCode := -1
        reader := .atWrite ⟨code, .KEY_RELEASED⟩ }
  | _, _ => none

def writeKey (s : InputManager) : Option InputManager :=
  match s.reader with
  | .atWrite key => some { s with pipe := s.pipe ++ [key], reader := .idle }
  | _ => none

/-- The next step of worker `w` in `onTimerExpired`. -/
def onTimerExpired (s : InputManager) (w : Nat) : Option InputManager :=
  if (s.mRepeatTimer.run w).isInHandler then
    match s.expired w with
    | .atCheck =>
        some (s.setExpired w
          (if s.mLastKeyCode = -1 then .returned else .atSetInterval))
    | .atSetInterval =>
        (s.mRepeatTimer.step (.setInterval w 100)).map fun timer =>
          (s.setTimer timer).setExpired w .atKeyCode
    | .atKeyCode => some (s.setExpired w (.atWrite s.mLastKeyCode))
    | .atWrite code =>
        some { s.setExpired w .returned with
          pipe := s.pipe ++ [⟨code, .KEY_REPEATED⟩] }
    | .returned => none
  else none

/-- A step of the timer that is not one of `readKey` and `onTimerExpired`.  A
worker goes on after its handler when `onTimerExpired` has returned. -/
def timerStep (s : InputManager) (step : TimerThreadStep) :
    Option InputManager :=
  match step with
  | .start _ | .stop | .setInterval _ _ => none
  | .worker w =>
      if (s.mRepeatTimer.run w).isInHandler then
        if s.expired w = .returned then
          (s.mRepeatTimer.step (.worker w)).map fun timer =>
            (s.setTimer timer).setExpired w .atCheck
        else none
      else (s.mRepeatTimer.step (.worker w)).map s.setTimer
  | step => (s.mRepeatTimer.step step).map s.setTimer

end InputManager

inductive InputManagerStep where
  | readKey (key : KeyEvent)
  | setLastKeyCode
  | writeKey
  | onTimerExpired (w : Nat)
  | timer (step : TimerThreadStep)
deriving Repr, DecidableEq

/-- The transition function. -/
def InputManager.step (s : InputManager) :
    InputManagerStep → Option InputManager
  | .readKey key => s.readKey key
  | .setLastKeyCode => s.setLastKeyCode
  | .writeKey => s.writeKey
  | .onTimerExpired w => s.onTimerExpired w
  | .timer step => s.timerStep step

end MyDirectFB

/-
The key maps of input/keymap.cpp.  A device is recognised by its version, vendor,
product and the beginning of its name; its own map is asked first and the map that
all devices share behind it.
-/
import MyDirectFB.StringFunctions
import Mathlib.Data.List.Basic

namespace MyDirectFB

/-- `InputDevice_e`. -/
inductive InputDeviceType where
  | INPUT_DEVICE_UNKNOWN
  | INPUT_DEVICE_ADC_KEYS
  | INPUT_DEVICE_GPIO_KEYS
deriving Repr, DecidableEq

/-- `KeyCode_e`, as far as a map has it. -/
inductive KeyCode where
  | KEYCODE_UNKNOWN
  | KEYCODE_BACK
  | KEYCODE_0
  | KEYCODE_1
  | KEYCODE_2
  | KEYCODE_3
  | KEYCODE_4
  | KEYCODE_5
  | KEYCODE_6
  | KEYCODE_7
  | KEYCODE_8
  | KEYCODE_9
  | KEYCODE_DPAD_UP
  | KEYCODE_DPAD_DOWN
  | KEYCODE_DPAD_LEFT
  | KEYCODE_DPAD_RIGHT
  | KEYCODE_DPAD_CENTER
  | KEYCODE_VOLUME_UP
  | KEYCODE_VOLUME_DOWN
  | KEYCODE_POWER
  | KEYCODE_MENU
  | KEYCODE_CHANNEL_UP
  | KEYCODE_CHANNEL_DOWN
  | KEYCODE_ZOOM_IN
  | KEYCODE_ZOOM_OUT
deriving Repr, DecidableEq

def KeyCode.value : KeyCode → Int32
  | .KEYCODE_UNKNOWN => -1
  | .KEYCODE_BACK => 4
  | .KEYCODE_0 => 7
  | .KEYCODE_1 => 8
  | .KEYCODE_2 => 9
  | .KEYCODE_3 => 10
  | .KEYCODE_4 => 11
  | .KEYCODE_5 => 12
  | .KEYCODE_6 => 13
  | .KEYCODE_7 => 14
  | .KEYCODE_8 => 15
  | .KEYCODE_9 => 16
  | .KEYCODE_DPAD_UP => 19
  | .KEYCODE_DPAD_DOWN => 20
  | .KEYCODE_DPAD_LEFT => 21
  | .KEYCODE_DPAD_RIGHT => 22
  | .KEYCODE_DPAD_CENTER => 23
  | .KEYCODE_VOLUME_UP => 24
  | .KEYCODE_VOLUME_DOWN => 25
  | .KEYCODE_POWER => 26
  | .KEYCODE_MENU => 82
  | .KEYCODE_CHANNEL_UP => 166
  | .KEYCODE_CHANNEL_DOWN => 167
  | .KEYCODE_ZOOM_IN => 168
  | .KEYCODE_ZOOM_OUT => 169

/-- `InputDeviceInfo_t`; `none` stands for the values that match any device. -/
structure InputDeviceInfo where
  mVersion : Option Int
  mVendor : Option Int
  mProduct : Option Int
  mName : Option (List UInt8)
  eType : InputDeviceType

def INPUT_DEVICES : List InputDeviceInfo :=
  [⟨none, some 1, some 1, some (ascii "adc-keys"), .INPUT_DEVICE_ADC_KEYS⟩,
    ⟨none, some 1, some 1, some (ascii "gpio-keys"), .INPUT_DEVICE_GPIO_KEYS⟩]

/-- The entry has the value or matches any. -/
def matchesField (field : Option Int) (value : Int) : Bool :=
  field.all (· = value)

/-- `get_input_device_type`. -/
def getInputDeviceType (version vendor product : Int) (name : CString) :
    InputDeviceType :=
  let found := INPUT_DEVICES.find? fun device =>
    matchesField device.mVersion version && matchesField device.mVendor vendor &&
      matchesField device.mProduct product &&
      device.mName.all fun mName => mName.isPrefixOf name.bytes
  found.elim .INPUT_DEVICE_UNKNOWN InputDeviceInfo.eType

def KEYMAP_DEFAULT : List (Nat × KeyCode) :=
  [(158, .KEYCODE_BACK), (11, .KEYCODE_0), (2, .KEYCODE_1), (3, .KEYCODE_2),
    (4, .KEYCODE_3), (5, .KEYCODE_4), (6, .KEYCODE_5), (7, .KEYCODE_6),
    (8, .KEYCODE_7), (9, .KEYCODE_8), (10, .KEYCODE_9), (103, .KEYCODE_DPAD_UP),
    (108, .KEYCODE_DPAD_DOWN), (105, .KEYCODE_DPAD_LEFT), (106, .KEYCODE_DPAD_RIGHT),
    (28, .KEYCODE_DPAD_CENTER), (142, .KEYCODE_POWER), (115, .KEYCODE_VOLUME_UP),
    (114, .KEYCODE_VOLUME_DOWN), (169, .KEYCODE_MENU), (402, .KEYCODE_CHANNEL_UP),
    (403, .KEYCODE_CHANNEL_DOWN), (418, .KEYCODE_ZOOM_IN), (419, .KEYCODE_ZOOM_OUT)]

def KEYMAP_GPIO_KEYS : List (Nat × KeyCode) :=
  [(116, .KEYCODE_POWER), (114, .KEYCODE_VOLUME_DOWN), (115, .KEYCODE_VOLUME_UP),
    (418, .KEYCODE_ZOOM_IN), (419, .KEYCODE_ZOOM_OUT)]

/-- The map of a device. -/
def InputDeviceType.keymap : InputDeviceType → List (Nat × KeyCode)
  | .INPUT_DEVICE_GPIO_KEYS => KEYMAP_GPIO_KEYS
  | .INPUT_DEVICE_ADC_KEYS | .INPUT_DEVICE_UNKNOWN => []

/-- `convert_key_code_from_map`: the first entry of the map of the device, then of
the one all devices share. -/
def convertKeyCodeFromMap (inputDevice : InputDeviceType) (rawKeyCode : Nat) :
    KeyCode :=
  ((inputDevice.keymap ++ KEYMAP_DEFAULT).lookup rawKeyCode).getD .KEYCODE_UNKNOWN

end MyDirectFB

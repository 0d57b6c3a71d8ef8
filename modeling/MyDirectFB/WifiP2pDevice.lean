/-
`WifiP2pDevice` (wifi/wifi_p2p_device.cpp) and the Wi-Fi display information in
it, which `setWfdInfo` of wifi/wifi_manager.cpp writes for this device.  The three
numbers are fields of four hexadecimal digits: what the one writes, the other
reads back, and it writes again what the other has read.
-/
import MyDirectFB.KeyValue
import MyDirectFB.Lib.Numeral
import MyDirectFB.StringFunctions

namespace MyDirectFB

open Numeral Scan

/-- `WfdInfo_t`. -/
structure WfdInfo where
  mReserv : UInt16
  mDeviceInfo : UInt16
  mCtrlPort : UInt16
  mMaxThroughput : UInt16
deriving Repr, DecidableEq

structure WifiP2pDevice where
  mDeviceAddress : List UInt8
  mDeviceName : List UInt8
  mPrimaryDeviceType : List UInt8
  mConfigMethods : Int
  mDeviceCapability : Int
  mGroupCapability : Int
  mWfdInfo : Option WfdInfo
deriving Repr, DecidableEq

/-- `if (strncmp(value, "0x", 2) == 0) value += 2;` -/
def skip0x (value : List UInt8) : List UInt8 :=
  if strncmpEq value (ascii "0x") 2 then value.drop 2 else value

/-- `sprintf(buf, "%c%c%c%c", ...)` with the four characters at a position, and
`strtol(buf, NULL, 16)` as an `uint16_t`.  It has no result if it reads behind
the memory. -/
def wfdField (memory : List UInt8) (position : Nat) : Option UInt16 :=
  let buf := (memory.drop position).take 4
  if buf.length = 4 then
    some (UInt16.ofInt (strtol (CString.ofMemory buf).bytes 16))
  else none

namespace WifiP2pDevice

/-- `_parse_key_value_callback`, without the log line for an unknown key.  It has
no result if it reads behind the NUL of the value. -/
def parseKeyValueCallback (device : WifiP2pDevice) (call : KeyValueCall) :
    Option WifiP2pDevice :=
  match call.value with
  | none => some { device with mDeviceAddress := call.key }
  | some value =>
      if call.key = ascii "p2p_dev_addr" then
        some { device with mDeviceAddress := value }
      else if call.key = ascii "pri_dev_type" then
        some { device with mPrimaryDeviceType := value }
      else if call.key = ascii "name" then
        some { device with mDeviceName := value }
      else if call.key = ascii "config_methods" then
        some { device with mConfigMethods := intOfLong (strtol (skip0x value) 16) }
      else if call.key = ascii "dev_capab" then
        some { device with
          mDeviceCapability := intOfLong (strtol (skip0x value) 16) }
      else if call.key = ascii "group_capab" then
        some { device with
          mGroupCapability := intOfLong (strtol (skip0x value) 16) }
      else if call.key = ascii "wfd_dev_info" then do
        let memory := skip0x value ++ [0]
        let deviceInfo ← wfdField memory 0
        let ctrlPort ← wfdField memory 4
        let maxThroughput ← wfdField memory 8
        some { device with
          mWfdInfo := some ⟨0, deviceInfo, ctrlPort, maxThroughput⟩ }
      else some device

/-- The fields before the text is parsed. -/
def initial : WifiP2pDevice :=
  ⟨[], [], [], 0, 0, 0, none⟩

/-- The constructor. -/
def new (str : CString) : Option WifiP2pDevice := do
  let calls ← parseKeyValueStr str
  calls.foldlM parseKeyValueCallback initial

end WifiP2pDevice

/-- `%04x` for an `int`. -/
def printfHex4 (n : Int) : List UInt8 :=
  printHex 4 (n % 4294967296).toNat

namespace WifiManager

/-- `WifiManager::setWfdInfo`: what it returns, and the commands it sends.
`sendCommand` gives the reply to the last of the commands sent so far. -/
def setWfdInfo (sendCommand : List (List UInt8) → List UInt8) (enable : Bool)
    (deviceType controlPort maxThroughput : Int) : Int × List (List UInt8) :=
  let display := ascii "SET wifi_display " ++
    if enable then ascii "1" else ascii "0"
  let subelem := if enable then
      ascii "WFD_SUBELEM_SET 0 " ++ (printfHex4 6 ++ printfHex4 deviceType ++
        printfHex4 controlPort ++ printfHex4 maxThroughput)
    else ascii "WFD_SUBELEM_SET 0 0"
  let reply := sendCommand [display, subelem]
  (if reply = ascii "OK\n" then 0 else -1, [display, subelem])

end WifiManager

/-! ### One field -/

/-- `%04x` for a 16-bit number. -/
theorem printfHex4_uint16 (n : UInt16) :
    printfHex4 n.toNat = printHex 4 n.toNat := by
  have hlt := n.toNat_lt
  rw [printfHex4]
  congr 1
  omega

theorem length_printfHex4 (n : UInt16) : (printfHex4 n.toNat).length = 4 := by
  rw [printfHex4_uint16, length_printHex]
  exact n.toNat_lt

theorem lowerHex_printfHex4 (n : Int) : ∀ c ∈ printfHex4 n, LowerHex c :=
  lowerHex_printHex 4 _

theorem isDigit_of_lowerHex {c : UInt8} (hc : LowerHex c) :
    isDigit 16 c = true := by
  simpa [isDigit] using (hexDigit_digitValue hc).1

/-- A field of four digits is read as their value. -/
theorem wfdField_append (before : List UInt8) {field : List UInt8}
    (hlength : field.length = 4) (hfield : ∀ c ∈ field, LowerHex c)
    (rest : List UInt8) :
    wfdField (before ++ (field ++ rest)) before.length =
      some (UInt16.ofNat (valueOf 16 field)) := by
  have hdigits (c : UInt8) (hc : c ∈ field) : isDigit 16 c = true :=
    isDigit_of_lowerHex (hfield c hc)
  have htake : ((before ++ (field ++ rest)).drop before.length).take 4 = field := by
    rw [List.drop_left, ← hlength, List.take_left]
  have hstring : (CString.ofMemory field).bytes = field := by
    refine List.takeWhile_eq_self_iff.mpr fun c hc => ?_
    obtain ⟨-, hchar⟩ := digits_chars (by decide) hdigits c hc
    simp only [List.mem_cons, not_or] at hchar
    simpa using hchar.1
  have hlt : valueOf 16 field < 65536 := by
    have h := valueOf_lt (by decide) hdigits
    rwa [hlength] at h
  rw [wfdField, htake, if_pos hlength, hstring,
    strtol_digits (by decide) hdigits (by unfold LONG_MAX; omega)]
  have hnat : ((valueOf 16 field : Int) % 2 ^ 16).toNat = valueOf 16 field := by
    omega
  rw [UInt16.ofInt, hnat]

/-- A field is written again as it was read. -/
theorem printfHex4_ofNat {field : List UInt8} (hlength : field.length = 4)
    (hfield : ∀ c ∈ field, LowerHex c) :
    printfHex4 (UInt16.ofNat (valueOf 16 field)).toNat = field := by
  have hlt : valueOf 16 field < 65536 := by
    have h := valueOf_lt (by decide) fun c hc => isDigit_of_lowerHex (hfield c hc)
    rwa [hlength] at h
  rw [printfHex4_uint16, UInt16.toNat_ofNat_of_lt' hlt, ← hlength,
    printHex_valueOf hfield]

/-- The prefix `0x` is skipped, and digits have no other. -/
theorem skip0x_digits {digits : List UInt8} (hdigits : ∀ c ∈ digits, LowerHex c)
    {before : List UInt8} (hbefore : before = [] ∨ before = ascii "0x") :
    skip0x (before ++ digits) = digits := by
  have hliteral : ascii "0x" = [48, 120] := by decide
  rcases hbefore with rfl | rfl
  · rw [List.nil_append, skip0x, if_neg]
    rw [hliteral]
    rcases digits with _ | ⟨zero, _ | ⟨x, rest⟩⟩
    · decide
    · simp [strncmpEq]
    · have hx : x ≠ 120 := by
        rintro rfl
        exact absurd (hdigits 120 (by simp)) (by decide)
      simp [strncmpEq, hx]
  · rw [hliteral, skip0x, hliteral]
    simp [strncmpEq]

/-! ### The three fields -/

theorem exists_fields {digits : List UInt8} (hlength : digits.length = 12) :
    ∃ first second third : List UInt8, first.length = 4 ∧ second.length = 4 ∧
      third.length = 4 ∧ digits = first ++ (second ++ third) := by
  refine ⟨digits.take 4, (digits.drop 4).take 4, (digits.drop 4).drop 4, ?_, ?_,
    ?_, ?_⟩
  · simp [hlength]
  · simp [hlength]
  · simp [hlength]
  · rw [List.take_append_drop, List.take_append_drop]

namespace WifiP2pDevice

/-- Three fields of four digits are read as their values. -/
theorem callback_fields (device : WifiP2pDevice) (index : Nat)
    {before first second third : List UInt8}
    (hbefore : before = [] ∨ before = ascii "0x")
    (hfirst : first.length = 4) (hsecond : second.length = 4)
    (hthird : third.length = 4)
    (hdigits : ∀ c ∈ first ++ (second ++ third), LowerHex c) :
    parseKeyValueCallback device ⟨index, ascii "wfd_dev_info",
        some (before ++ (first ++ (second ++ third)))⟩ =
      some { device with mWfdInfo := some ⟨0, .ofNat (valueOf 16 first),
        .ofNat (valueOf 16 second), .ofNat (valueOf 16 third)⟩ } := by
  have hskip := skip0x_digits hdigits hbefore
  have hdevice := wfdField_append [] hfirst
    (fun c hc => hdigits c (by simp [hc])) (second ++ (third ++ [0]))
  have hport := wfdField_append first hsecond
    (fun c hc => hdigits c (by simp [hc])) (third ++ [0])
  have hthroughput := wfdField_append (first ++ second) hthird
    (fun c hc => hdigits c (by simp [hc])) [0]
  rw [hfirst] at hport
  rw [List.length_append, hfirst, hsecond] at hthroughput
  simp only [List.nil_append, List.length_nil, List.append_assoc] at *
  simp +decide [parseKeyValueCallback, hskip, hdevice, hport, hthroughput]

end WifiP2pDevice

namespace WifiManager

/-- The payload of the command that sets the display information. -/
theorem setWfdInfo_command (sendCommand : List (List UInt8) → List UInt8)
    (deviceType controlPort maxThroughput : Int) :
    (setWfdInfo sendCommand true deviceType controlPort maxThroughput).2[1]? =
      some (ascii "WFD_SUBELEM_SET 0 " ++ (ascii "0006" ++
        (printfHex4 deviceType ++ (printfHex4 controlPort ++
          printfHex4 maxThroughput)))) := by
  have hlength : printfHex4 6 = ascii "0006" := by decide
  simp [setWfdInfo, hlength]

end WifiManager

open WifiManager WifiP2pDevice in
/-- What the encoder writes for three 16-bit numbers, the decoder reads back with
or without `0x`, and what the decoder reads from twelve lower-case digits, the
encoder writes for it. -/
theorem wfdInfo_agree (sendCommand : List (List UInt8) → List UInt8)
    (device : WifiP2pDevice) (index : Nat) :
    (∀ deviceType controlPort maxThroughput : UInt16, ∃ digits,
      (setWfdInfo sendCommand true deviceType.toNat controlPort.toNat
          maxThroughput.toNat).2[1]? =
        some (ascii "WFD_SUBELEM_SET 0 " ++ (ascii "0006" ++ digits)) ∧
      digits.length = 12 ∧ (∀ c ∈ digits, LowerHex c) ∧
      ∀ before, before = [] ∨ before = ascii "0x" →
        parseKeyValueCallback device
            ⟨index, ascii "wfd_dev_info", some (before ++ digits)⟩ =
          some { device with
            mWfdInfo := some ⟨0, deviceType, controlPort, maxThroughput⟩ }) ∧
    ∀ digits : List UInt8, digits.length = 12 → (∀ c ∈ digits, LowerHex c) →
      ∃ deviceType controlPort maxThroughput : UInt16,
        parseKeyValueCallback device
            ⟨index, ascii "wfd_dev_info", some digits⟩ =
          some { device with
            mWfdInfo := some ⟨0, deviceType, controlPort, maxThroughput⟩ } ∧
        (setWfdInfo sendCommand true deviceType.toNat controlPort.toNat
            maxThroughput.toNat).2[1]? =
          some (ascii "WFD_SUBELEM_SET 0 " ++ (ascii "0006" ++ digits)) := by
  constructor
  · intro deviceType controlPort maxThroughput
    have hdigits : ∀ c ∈ printfHex4 deviceType.toNat ++
        (printfHex4 controlPort.toNat ++ printfHex4 maxThroughput.toNat),
        LowerHex c :=
      List.forall_mem_append.mpr ⟨lowerHex_printfHex4 _,
        List.forall_mem_append.mpr ⟨lowerHex_printfHex4 _,
          lowerHex_printfHex4 _⟩⟩
    refine ⟨_, setWfdInfo_command sendCommand _ _ _, ?_, hdigits,
      fun before hbefore => ?_⟩
    · simp [length_printfHex4]
    · rw [callback_fields device index hbefore (length_printfHex4 _)
        (length_printfHex4 _) (length_printfHex4 _) hdigits]
      simp [printfHex4_uint16, valueOf_printHex]
  · intro digits hlength hdigits
    obtain ⟨first, second, third, hfirst, hsecond, hthird, rfl⟩ :=
      exists_fields hlength
    refine ⟨_, _, _, @callback_fields device index [] first second third
      (.inl rfl) hfirst hsecond hthird hdigits, ?_⟩
    rw [setWfdInfo_command,
      printfHex4_ofNat hfirst fun c hc => hdigits c (by simp [hc]),
      printfHex4_ofNat hsecond fun c hc => hdigits c (by simp [hc]),
      printfHex4_ofNat hthird fun c hc => hdigits c (by simp [hc])]

/-- A primary sink with port 7236 and 50 Mbit/s. -/
theorem wfdInfo_agree_primarySink :
    WifiP2pDevice.parseKeyValueCallback .initial
        ⟨0, ascii "wfd_dev_info", some (ascii "00111c440032")⟩ =
      some ⟨[], [], [], 0, 0, 0, some ⟨0, 17, 7236, 50⟩⟩ ∧
    (WifiManager.setWfdInfo (fun _ => ascii "OK\n") true 17 7236 50).2[1]? =
      some (ascii "WFD_SUBELEM_SET 0 000600111c440032") := by
  obtain ⟨deviceType, controlPort, maxThroughput, hread, hwrite⟩ :=
    (wfdInfo_agree (fun _ => ascii "OK\n") .initial 0).2 (ascii "00111c440032")
      (by decide) (forall_of_all (by decide))
  have hvalue : WifiP2pDevice.parseKeyValueCallback .initial
      ⟨0, ascii "wfd_dev_info", some (ascii "00111c440032")⟩ =
    some ⟨[], [], [], 0, 0, 0, some ⟨0, 17, 7236, 50⟩⟩ := by
    decide
  rw [hvalue] at hread
  simp only [WifiP2pDevice.initial, Option.some.injEq, WifiP2pDevice.mk.injEq,
    WfdInfo.mk.injEq, true_and] at hread
  obtain ⟨hdevice, hport, hthroughput⟩ := hread
  have hdeviceType : ((17 : UInt16).toNat : Int) = 17 := rfl
  have hcontrolPort : ((7236 : UInt16).toNat : Int) = 7236 := rfl
  have hmaxThroughput : ((50 : UInt16).toNat : Int) = 50 := rfl
  have hcommand : ascii "WFD_SUBELEM_SET 0 " ++
      (ascii "0006" ++ ascii "00111c440032") =
    ascii "WFD_SUBELEM_SET 0 000600111c440032" := by decide
  rw [← hdevice, ← hport, ← hthroughput, hdeviceType, hcontrolPort,
    hmaxThroughput, hcommand] at hwrite
  exact ⟨hvalue, hwrite⟩

end MyDirectFB

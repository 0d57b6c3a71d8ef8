/-
`WifiDevice` (wifi/wifi_device.cpp) and the rows of scan results it is
constructed from: columns between TABs, which the constructor counts by the
tokens of `strtok_r`.  The name of a network moves into the column of the flags
if that is empty, and is lost.
-/
import MyDirectFB.Lib.Numeral
import MyDirectFB.Lib.Tokens
import MyDirectFB.StringFunctions

namespace MyDirectFB

open Numeral Scan Tokens

structure WifiDevice where
  mBssid : List UInt8
  mSsid : List UInt8
  mFrequency : Int
  mLevel : Int
deriving Repr, DecidableEq

def TAB : UInt8 := 9

/-- The string in `buf` after `strncpy(buf, str, sizeof(buf))` and the NUL at its
end. -/
def rowBuf (str : CString) : CString :=
  .ofMemory (((str.bytes ++ List.replicate 1024 0).take 1024).set (1024 - 1) 0)

namespace WifiDevice

/-- What the loop does with the token at a position, without the log line for one
that exceeds the columns. -/
def setColumn (device : WifiDevice) (pos : Nat) (tok : List UInt8) : WifiDevice :=
  match pos with
  | 0 => { device with mBssid := tok }
  | 1 => { device with mFrequency := intOfLong (strtol tok 10) }
  | 2 => { device with mLevel := intOfLong (strtol tok 10) }
  | 3 => device
  | 4 => { device with mSsid := tok }
  | _ => device

/-- The fields before the row is read. -/
def initial : WifiDevice :=
  ⟨[], [], 0, 0⟩

/-- The loop over the tokens, from a position on. -/
def readColumns (device : WifiDevice) (pos : Nat) : List (List UInt8) → WifiDevice
  | [] => device
  | tok :: toks => (device.setColumn pos tok).readColumns (pos + 1) toks

/-- The constructor. -/
def new (str : CString) : WifiDevice :=
  initial.readColumns 0 (tokens TAB (rowBuf str).bytes)

end WifiDevice

/-! ### Rows -/

/-- A decimal `int`. -/
structure DecimalInt where
  negative : Bool
  digits : List UInt8
  ne_nil : digits ≠ []
  isDigits : ∀ c ∈ digits, isDigit 10 c = true
  bounds : if negative then valueOf 10 digits ≤ 2147483648
    else valueOf 10 digits ≤ 2147483647

namespace DecimalInt

def text (n : DecimalInt) : List UInt8 :=
  if n.negative then 45 :: n.digits else n.digits

def value (n : DecimalInt) : Int :=
  if n.negative then -(valueOf 10 n.digits : Int) else valueOf 10 n.digits

theorem strtol_text (n : DecimalInt) : intOfLong (strtol n.text 10) = n.value := by
  have hbounds := n.bounds
  unfold text value
  split
  · rename_i hnegative
    rw [if_pos hnegative] at hbounds
    rw [strtol_minus n.isDigits (by unfold LONG_MIN; omega)]
    exact intOfLong_of_bounds (by omega) (by omega)
  · rename_i hnegative
    rw [if_neg hnegative] at hbounds
    rw [strtol_digits (by decide) n.isDigits (by unfold LONG_MAX; omega)]
    exact intOfLong_of_bounds (by omega) (by omega)

theorem text_ne_nil (n : DecimalInt) : n.text ≠ [] := by
  unfold text
  split
  · exact List.cons_ne_nil _ _
  · exact n.ne_nil

theorem tab_not_mem_text (n : DecimalInt) : TAB ∉ n.text := by
  have hdigits : TAB ∉ n.digits := fun hmem =>
    absurd (n.isDigits TAB hmem) (by decide)
  unfold text
  split
  · exact List.not_mem_cons_of_ne_of_not_mem (by decide) hdigits
  · exact hdigits

end DecimalInt

/-- A row of scan results. -/
structure ScanRow where
  bssid : List UInt8
  frequency : DecimalInt
  level : DecimalInt
  flags : List UInt8
  ssid : List UInt8
  bssid_ne_nil : bssid ≠ []
  bssid_tab : TAB ∉ bssid
  flags_tab : TAB ∉ flags
  ssid_tab : TAB ∉ ssid

namespace ScanRow

/-- `bssid TAB frequency TAB level TAB flags TAB ssid`. -/
def text (row : ScanRow) : List UInt8 :=
  row.bssid ++ TAB :: (row.frequency.text ++ TAB :: (row.level.text ++
    TAB :: (row.flags ++ TAB :: row.ssid)))

/-- The device of a row. -/
def device (row : ScanRow) : WifiDevice where
  mBssid := row.bssid
  mSsid := row.ssid
  mFrequency := row.frequency.value
  mLevel := row.level.value

theorem tokens_text (row : ScanRow) :
    tokens TAB row.text = row.bssid :: row.frequency.text :: row.level.text ::
      (ofColumn row.flags ++ ofColumn row.ssid) := by
  rw [text, tokens_append row.bssid_tab,
    tokens_append row.frequency.tab_not_mem_text,
    tokens_append row.level.tab_not_mem_text, tokens_append row.flags_tab,
    tokens_last row.ssid_tab]
  simp [ofColumn, row.bssid_ne_nil, row.frequency.text_ne_nil,
    row.level.text_ne_nil]

end ScanRow

/-- A short row is copied as it is. -/
theorem rowBuf_eq {str : CString} (hlength : str.bytes.length < 1024) :
    rowBuf str = str := by
  obtain ⟨n, hn⟩ : ∃ n, 1024 - str.bytes.length = n + 1 :=
    ⟨1023 - str.bytes.length, by omega⟩
  rw [rowBuf, CString.take_padded (by omega) le_rfl,
    List.set_append_right _ _ (by omega), List.set_replicate_self, hn,
    List.replicate_succ]
  exact CString.ofMemory_append str _

/-- The columns of a row come to their fields exactly if its flags are not empty
or the network has no name. -/
theorem newDevice_iff (row : ScanRow) (str : CString)
    (htext : str.bytes = row.text) (hlength : row.text.length < 1024) :
    WifiDevice.new str = row.device ↔ row.flags ≠ [] ∨ row.ssid = [] := by
  rw [WifiDevice.new, rowBuf_eq (htext ▸ hlength), htext, row.tokens_text]
  simp only [WifiDevice.readColumns, WifiDevice.setColumn, WifiDevice.initial,
    row.frequency.strtol_text, row.level.strtol_text]
  by_cases hflags : row.flags = []
  · by_cases hssid : row.ssid = []
    · simp [ofColumn, hflags, hssid, WifiDevice.readColumns, ScanRow.device]
    · simp [ofColumn, hflags, hssid, WifiDevice.readColumns, ScanRow.device,
        WifiDevice.setColumn, Ne.symm hssid]
  · by_cases hssid : row.ssid = []
    · simp [ofColumn, hflags, hssid, WifiDevice.readColumns, ScanRow.device,
        WifiDevice.setColumn]
    · simp [ofColumn, hflags, hssid, WifiDevice.readColumns, ScanRow.device,
        WifiDevice.setColumn]

/-- The row of a network `home` at 2412 MHz and -52 dBm. -/
def homeRow (flags : List UInt8) (hflags : TAB ∉ flags) : ScanRow where
  bssid := ascii "02:00:01:02:03:04"
  frequency :=
    ⟨false, ascii "2412", by decide, forall_of_all (by decide), by decide⟩
  level := ⟨true, ascii "52", by decide, forall_of_all (by decide), by decide⟩
  flags := flags
  ssid := ascii "home"
  bssid_ne_nil := by decide
  bssid_tab := by decide
  flags_tab := hflags
  ssid_tab := by decide

theorem newDevice_iff_homeRow :
    WifiDevice.new ⟨(homeRow (ascii "[ESS]") (by decide)).text, by decide⟩ =
      ⟨ascii "02:00:01:02:03:04", ascii "home", 2412, -52⟩ := by
  have hdevice : (homeRow (ascii "[ESS]") (by decide)).device =
      ⟨ascii "02:00:01:02:03:04", ascii "home", 2412, -52⟩ := by decide
  rw [← hdevice]
  exact (newDevice_iff (homeRow (ascii "[ESS]") (by decide)) _ rfl
    (by decide)).mpr (.inl (by decide))

/-- Without flags the name is lost. -/
theorem emptyFlags_misread :
    (homeRow [] (by decide)).text.length < 1024 ∧
      (homeRow [] (by decide)).device.mSsid = ascii "home" ∧
      WifiDevice.new ⟨(homeRow [] (by decide)).text, by decide⟩ =
        ⟨ascii "02:00:01:02:03:04", [], 2412, -52⟩ ∧
      WifiDevice.new ⟨(homeRow [] (by decide)).text, by decide⟩ ≠
        (homeRow [] (by decide)).device := by
  have hnew : WifiDevice.new ⟨(homeRow [] (by decide)).text, by decide⟩ =
      ⟨ascii "02:00:01:02:03:04", [], 2412, -52⟩ := by
    rw [WifiDevice.new, rowBuf_eq (by decide)]
    rw [(homeRow [] (by decide)).tokens_text]
    decide
  refine ⟨by decide, rfl, hnew, ?_⟩
  rw [hnew]
  decide

end MyDirectFB

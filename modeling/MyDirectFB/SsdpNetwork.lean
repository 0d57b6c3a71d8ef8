/-
Devices that run SSDP on one network (net/ssdp/ssdp.cpp).  They announce themselves
to a group that they have joined, so that their own datagrams come back to them and to
the others.  None of these is a search: whatever the network loses, doubles or delays,
the devices answer datagrams of control points only, and each delivery of a search
once.  They announce themselves in time for the entry of a control point not to expire.
-/
import Mathlib.Logic.Function.Basic
import MyDirectFB.DefaultGateway
import MyDirectFB.Lib.LabelledRun
import MyDirectFB.Lib.PrefixDispatch
import MyDirectFB.Ssdp
import MyDirectFB.TimerCadence
import MyDirectFB.Web

namespace MyDirectFB

universe u

/-! ### What is sent -/

theorem chars_inet_ntoa (addr : InAddr) : ∀ c ∈ inet_ntoa addr, 46 ≤ c ∧ c ≤ 57 := by
  have hdecimal {n : Nat} {c : UInt8} (hc : c ∈ Numeral.printDecimal n) :
      46 ≤ c ∧ c ≤ 57 :=
    have hdigit := Numeral.chars_printDecimal n c hc
    ⟨UInt8.le_trans (by decide) hdigit.1, hdigit.2⟩
  intro c hc
  simp only [inet_ntoa, List.mem_append, List.mem_cons] at hc
  rcases hc with hc | rfl | hc | rfl | hc | rfl | hc <;>
    first | exact hdecimal hc | decide

/-- `get_ip_addr`: the address of the interface, or an empty text. -/
def NetUtil.get_ip_addr (address : Option InAddr) : List UInt8 :=
  match address with
  | none => []
  | some addr => inet_ntoa addr

theorem NetUtil.not_mem_get_ip_addr (address : Option InAddr) {c : UInt8}
    (hc : c < 46 ∨ 57 < c) : c ∉ get_ip_addr address := by
  cases address with
  | none => exact List.not_mem_nil
  | some addr =>
      intro hmem
      obtain ⟨hlow, hhigh⟩ := chars_inet_ntoa addr c hmem
      rcases hc with hc | hc
      · exact UInt8.not_le.mpr hc hlow
      · exact UInt8.not_le.mpr hc hhigh

/-- `WEB::getLocation`. -/
def WEB.getLocation (address : Option InAddr) : CString where
  bytes := ascii "http://" ++ NetUtil.get_ip_addr address ++ ascii ":1901" ++
    LOCATION_DESC
  noNul := by
    have haddress : 0 ∉ NetUtil.get_ip_addr address :=
      NetUtil.not_mem_get_ip_addr address (.inl (by decide))
    have hfront : 0 ∉ ascii "http://" := by decide
    have hback : 0 ∉ ascii ":1901" ∧ 0 ∉ LOCATION_DESC := by decide
    simp [haddress, hfront, hback]

namespace SSDP

/-- What `strftime` writes for the time: names and numbers. -/
structure Date where
  text : CString
  plain : PERCENT ∉ text.bytes

inductive NotifyType_e where
  | alive
  | byebye
deriving Repr, DecidableEq

def usn : List UInt8 := UUID ++ ascii "::" ++ SERVICE_TYPE

/-- What `sendNotify` sends. -/
def sendNotify (eType : NotifyType_e) (location : CString) : List UInt8 :=
  (match eType with
    | .alive =>
        ascii "NOTIFY * HTTP/1.1\r\nHOST: 239.255.255.250:1900\r\n" ++
          ascii "CACHE-CONTROL: max-age=120\r\nLOCATION: " ++ location.bytes ++
          ascii "\r\nNT: " ++ SERVICE_TYPE ++ ascii "\r\nNTS: ssdp:alive\r\nSERVER: " ++
          SERVER_NAME ++ ascii "\r\nUSN: uuid:" ++ usn ++
          ascii "\r\nCONTENT-LENGTH: 0\r\n\r\n"
    | .byebye =>
        ascii "NOTIFY * HTTP/1.1\r\nHOST: 239.255.255.250:1900\r\nNT: " ++
          SERVICE_TYPE ++ ascii "\r\nNTS: ssdp:byebye\r\nUSN: uuid:" ++ usn ++
          ascii "\r\n\r\n").take (MAX_PACKET_SIZE - 1)

/-- The C string in `buf` after a datagram has been received. -/
def received (payload : List UInt8) : CString :=
  .ofMemory (payload.take (4096 - 1) ++ [0])

/-- `onFdReadable`: what is sent for a datagram. -/
def onFdReadable (prints : List UInt8 → Bool) (date : Date) (address : Option InAddr)
    (payload : List UInt8) : Except Fault (List (List UInt8)) :=
  if payload = [] then .ok []
  else parseSSDP prints date.text (WEB.getLocation address) (received payload)

theorem isSearch_iff_any (payload : CString) :
    ((lines payload).head?.any fun line => decide (ascii "M-SEARCH" <+: line)) = true ∧
      (gSupportedServiceTypes.any fun st => decide (st = effectiveTarget payload)) =
        true ↔ IsSearch payload := by
  simp [IsSearch, Option.any_eq_true]

instance (payload : CString) : Decidable (IsSearch payload) :=
  decidable_of_iff _ (isSearch_iff_any payload)

end SSDP

/-! ### The network -/

/-- Where a datagram comes from: a control point, or a device, which announces itself
or replies to the datagram of the index. -/
inductive Origin (D : Type u) where
  | foreign
  | notify (d : D)
  | reply (d : D) (index : Nat)
deriving Repr, DecidableEq

structure Datagram (D : Type u) where
  origin : Origin D
  payload : List UInt8
deriving Repr, DecidableEq

/-- A device; a fault comes with the index of the datagram it was on. -/
inductive Device where
  | stopped
  | started
  | failed (index : Nat)
deriving Repr, DecidableEq

/-- `sent` has every datagram so far, `delivered` the deliveries to devices that were
started, and `returned` those that a device has come to the end of. -/
structure SsdpNetwork (D : Type u) where
  devices : D → Device
  sent : List (Datagram D)
  delivered : List (D × Nat)
  returned : List (D × Nat)

inductive SsdpAction (D : Type u) where
  | start (d : D) (address : Option InAddr)
  | timer (d : D) (address : Option InAddr)
  | stop (d : D) (address : Option InAddr)
  | foreign (payload : List UInt8)
  /-- A datagram that has been sent comes to a device. -/
  | deliver (d : D) (index : Nat) (date : SSDP.Date) (address : Option InAddr)

namespace SsdpNetwork

variable {D : Type u} [DecidableEq D]

def init : SsdpNetwork D := ⟨fun _ => .stopped, [], [], []⟩

/-- A device sends a notification. -/
def notify (s : SsdpNetwork D) (d : D) (eType : SSDP.NotifyType_e)
    (address : Option InAddr) : SsdpNetwork D :=
  { s with sent := s.sent ++
      [⟨.notify d, SSDP.sendNotify eType (WEB.getLocation address)⟩] }

def setDevice (s : SsdpNetwork D) (d : D) (device : Device) : SsdpNetwork D :=
  { s with devices := Function.update s.devices d device }

/-- The transition function. -/
def step (prints : List UInt8 → Bool) (s : SsdpNetwork D) :
    SsdpAction D → Option (SsdpNetwork D)
  | .start d address =>
      match s.devices d with
      | .stopped => some ((s.setDevice d .started).notify d .alive address)
      | _ => none
  | .timer d address =>
      match s.devices d with
      | .started => some (s.notify d .alive address)
      | _ => none
  | .stop d address =>
      match s.devices d with
      | .started => some ((s.setDevice d .stopped).notify d .byebye address)
      | _ => none
  | .foreign payload => some { s with sent := s.sent ++ [⟨.foreign, payload⟩] }
  | .deliver d index date address =>
      match s.devices d, s.sent[index]? with
      | .started, some datagram =>
          match SSDP.onFdReadable prints date address datagram.payload with
          | .error _ => some { s.setDevice d (.failed index) with
              delivered := s.delivered ++ [(d, index)] }
          | .ok replies => some { s with
              sent := s.sent ++ replies.map fun reply => ⟨.reply d index, reply⟩
              delivered := s.delivered ++ [(d, index)]
              returned := s.returned ++ [(d, index)] }
      | _, _ => none

end SsdpNetwork

/-- The delivery that a reply is for. -/
def Origin.delivery {D : Type u} : Origin D → Option (D × Nat)
  | .foreign | .notify _ => none
  | .reply d index => some (d, index)

/-- A datagram is a search of a control point. -/
def Datagram.isSearch {D : Type u} (datagram : Datagram D) : Bool :=
  match datagram.origin with
  | .foreign => decide (SSDP.IsSearch (SSDP.received datagram.payload))
  | .notify _ | .reply _ _ => false

/-- A search that no log line fails on: there is no `%` in it. -/
def Datagram.isPlainSearch {D : Type u} (datagram : Datagram D) : Bool :=
  datagram.isSearch && decide (SSDP.PERCENT ∉ (SSDP.received datagram.payload).bytes)

/-- The datagram of an index is of the kind. -/
def kindAt {D : Type u} (kind : Datagram D → Bool) (sent : List (Datagram D))
    (index : Nat) : Bool :=
  sent[index]?.any kind

/-- The datagram has the reply to a search. -/
def Datagram.RepliesTo {D : Type u} (datagram search : Datagram D) : Prop :=
  ∃ (date : SSDP.Date) (address : Option InAddr),
    datagram.payload = SSDP.replyMSearch date.text (WEB.getLocation address)
      (SSDP.effectiveTarget (SSDP.received search.payload))

namespace SsdpNetwork

variable {D : Type u}

/-- The deliveries that have been replied to, in the order of the replies. -/
def replied (s : SsdpNetwork D) : List (D × Nat) :=
  s.sent.filterMap (·.origin.delivery)

/-- The devices have replied to the searches of control points, once for each delivery
that they came to the end of and with the target of the search; to each delivery of a
plain one; and they have failed on datagrams of control points only. -/
structure Sound (s : SsdpNetwork D) : Prop where
  replied : s.replied = s.returned.filter (kindAt Datagram.isSearch s.sent ·.2)
  answered : s.replied.filter (kindAt Datagram.isPlainSearch s.sent ·.2) =
    s.delivered.filter (kindAt Datagram.isPlainSearch s.sent ·.2)
  carries : ∀ datagram ∈ s.sent, ∀ d index, datagram.origin = .reply d index →
    ∃ search, s.sent[index]? = some search ∧ datagram.RepliesTo search
  faults : ∀ d index, s.devices d = .failed index →
    ∃ payload, s.sent[index]? = some ⟨.foreign, payload⟩

end SsdpNetwork

/-! ### What the devices send is no search -/

namespace SSDP

/-- The payload begins like a notification or a reply, and can be a format. -/
def Inert (payload : List UInt8) : Prop :=
  (ascii "NOTIFY" <+: payload ∨ ascii "HTTP" <+: payload) ∧ PERCENT ∉ payload

theorem prefix_takeWhile {A : Type} {pred : A → Bool} {word text : List A}
    (hword : ∀ a ∈ word, pred a = true) (hbegins : word <+: text) :
    word <+: text.takeWhile pred := by
  obtain ⟨rest, rfl⟩ := hbegins
  rw [List.takeWhile_append_of_pos hword]
  exact List.prefix_append _ _

theorem Inert.take {payload : List UInt8} (hinert : Inert payload) {n : Nat}
    (hn : 6 ≤ n) : Inert (payload.take n) := by
  refine ⟨hinert.1.imp ?_ ?_, fun hmem => hinert.2 (List.mem_of_mem_take hmem)⟩
  · exact fun hbegins => List.prefix_take_iff.mpr ⟨hbegins, hn⟩
  · exact fun hbegins => List.prefix_take_iff.mpr
      ⟨hbegins, Nat.le_trans (by decide) hn⟩

/-- The words have no NUL and no line feed. -/
theorem chars_notify : ∀ c ∈ ascii "NOTIFY", decide (c ≠ 0) = true ∧ c ≠ LF :=
  Scan.forall_of_all rfl

theorem chars_http : ∀ c ∈ ascii "HTTP", decide (c ≠ 0) = true ∧ c ≠ LF :=
  Scan.forall_of_all rfl

theorem inert_received {payload : List UInt8} (hinert : Inert payload) :
    Inert (received payload).bytes := by
  have htake := hinert.take (show 6 ≤ 4096 - 1 by decide)
  have hword {word : List UInt8} (hword : ∀ c ∈ word, decide (c ≠ 0) = true)
      (hbegins : word <+: payload.take (4096 - 1)) :
      word <+: (received payload).bytes :=
    prefix_takeWhile hword (hbegins.trans (List.prefix_append _ _))
  refine ⟨htake.1.imp (hword fun c hc => (chars_notify c hc).1)
    (hword fun c hc => (chars_http c hc).1), fun hmem => ?_⟩
  have hmem := (List.takeWhile_sublist _).subset hmem
  rcases List.mem_append.mp hmem with hmem | hmem
  · exact htake.2 hmem
  · exact absurd (List.mem_singleton.mp hmem) (by decide)

/-- The first line of a text begins like the text. -/
theorem strtok_begins {c : UInt8} {word text : List UInt8}
    (hword : ∀ d ∈ c :: word, d ≠ LF) (hbegins : c :: word <+: text) :
    ∃ line rest, Tokens.strtok LF text = some (line, rest) ∧ c :: word <+: line := by
  obtain ⟨rest, rfl⟩ := hbegins
  have hc : c ≠ LF := hword c List.mem_cons_self
  have htail : word <+: (word ++ rest).takeWhile (· ≠ LF) :=
    prefix_takeWhile (fun d hd => by simpa using hword d (List.mem_cons_of_mem c hd))
      (List.prefix_append _ _)
  refine ⟨c :: (word ++ rest).takeWhile (· ≠ LF),
    ((word ++ rest).dropWhile (· ≠ LF)).tail, ?_, ?_⟩
  · rw [Tokens.strtok, List.cons_append, List.dropWhile_cons_of_neg (by simpa using hc)]
  · exact (List.cons_prefix_cons).mpr ⟨rfl, htail⟩

/-- Nothing is sent for a payload whose first line begins otherwise than a search. -/
theorem parseSSDP_begins {prints : List UInt8 → Bool} {date location payload : CString}
    (hprints : prints payload.bytes = true) {c : UInt8} {word : List UInt8}
    (hword : ∀ d ∈ c :: word, d ≠ LF)
    (hapart : PrefixDispatch.Apart (c :: word) (ascii "M-SEARCH"))
    (hbegins : c :: word <+: payload.bytes) :
    parseSSDP prints date location payload = .ok [] := by
  obtain ⟨line, rest, hline, hfirst⟩ := strtok_begins hword hbegins
  have hsearch : strncmpEq line (ascii "M-SEARCH") 8 = false := by
    have hnot := PrefixDispatch.not_prefix_of_apart hapart hfirst
    rw [← strncmpEq_iff_begins] at hnot
    exact Bool.eq_false_of_not_eq_true hnot
  rw [parseSSDP, hprints, hline]
  simp only [hsearch, Bool.not_true, Bool.not_false, Bool.false_eq_true, ↓reduceIte]

section Receive

variable {prints : List UInt8 → Bool} {date : Date} {address : Option InAddr}
  {payload : List UInt8}

theorem onFdReadable_inert (hprints : PrintsPlain prints) (hinert : Inert payload) :
    onFdReadable prints date address payload = .ok [] := by
  obtain ⟨hbegins, hplain⟩ := inert_received hinert
  have hprints := hprints _ hplain
  rw [onFdReadable]
  split
  · rfl
  · rcases hbegins with hbegins | hbegins
    · exact parseSSDP_begins hprints (fun c hc => (chars_notify c hc).2) (by decide)
        hbegins
    · exact parseSSDP_begins hprints (fun c hc => (chars_http c hc).2) (by decide)
        hbegins

/-- A search is replied to if the log line with it returns. -/
theorem onFdReadable_search (hprints : prints (received payload).bytes = true)
    (hsearch : IsSearch (received payload)) :
    onFdReadable prints date address payload =
      .ok [replyMSearch date.text (WEB.getLocation address)
        (effectiveTarget (received payload))] := by
  obtain ⟨first, hfirst, -⟩ := hsearch.1
  have hnonempty : payload ≠ [] := by
    rintro rfl
    exact absurd hfirst (by simp [received, CString.ofMemory, lines])
  rw [onFdReadable, if_neg hnonempty]
  cases hline : Tokens.strtok LF (received payload).bytes with
  | none =>
      rw [← tokens_eq_lines, Tokens.tokens_of_none hline] at hfirst
      cases hfirst
  | some found =>
      have hanswers := @answers_of_line _ _ _ date.text (WEB.getLocation address)
        prints hprints hline
      cases hparse : parseSSDP prints date.text (WEB.getLocation address)
          (received payload) with
      | error fault =>
          rw [hparse] at hanswers
          exact hanswers.elim
      | ok replies =>
          rw [hparse] at hanswers
          rw [hanswers.1 hsearch]

/-- Any datagram leads to a fault, or to one reply if it is a search. -/
theorem onFdReadable_cases (prints : List UInt8 → Bool) (date : Date)
    (address : Option InAddr) (payload : List UInt8) :
    (∃ fault, onFdReadable prints date address payload = .error fault) ∨
      onFdReadable prints date address payload =
        .ok (if IsSearch (received payload) then
          [replyMSearch date.text (WEB.getLocation address)
            (effectiveTarget (received payload))]
        else []) := by
  unfold onFdReadable
  by_cases hempty : payload = []
  · subst hempty
    exact .inr rfl
  rw [if_neg hempty]
  cases hprints : prints (received payload).bytes with
  | false => exact .inl ⟨.log, by rw [parseSSDP, hprints]; rfl⟩
  | true =>
      cases hline : Tokens.strtok LF (received payload).bytes with
      | none => exact .inl ⟨.nullLine, by rw [parseSSDP, hprints, hline]; rfl⟩
      | some found =>
          have hanswers := @answers_of_line _ _ _ date.text (WEB.getLocation address)
            prints hprints hline
          cases hparse : parseSSDP prints date.text (WEB.getLocation address)
              (received payload) with
          | error fault => exact .inl ⟨fault, rfl⟩
          | ok replies =>
              rw [hparse] at hanswers
              refine .inr (congrArg Except.ok ?_)
              split
              · next hsearch => exact hanswers.1 hsearch
              · next hsearch => exact hanswers.2 hsearch

end Receive

theorem percent_not_mem_getLocation (address : Option InAddr) :
    PERCENT ∉ (WEB.getLocation address).bytes := by
  have haddress : PERCENT ∉ NetUtil.get_ip_addr address :=
    NetUtil.not_mem_get_ip_addr address (.inl (by decide))
  have hfront : PERCENT ∉ ascii "http://" := by decide
  have hback : PERCENT ∉ ascii ":1901" ∧ PERCENT ∉ WEB.LOCATION_DESC := by decide
  simp [WEB.getLocation, haddress, hfront, hback]

/-- A reply and a notification begin with their own words, and have no `%`. -/
theorem inert_replyMSearch (date : Date) (address : Option InAddr) {st : List UInt8}
    (hst : st ∈ gSupportedServiceTypes) :
    Inert (replyMSearch date.text (WEB.getLocation address) st) := by
  have hplain : PERCENT ∉ st := by
    have hall : ∀ st ∈ gSupportedServiceTypes, PERCENT ∉ st := by decide
    exact hall st hst
  have hlocation := percent_not_mem_getLocation address
  refine Inert.take ⟨.inr ?_, ?_⟩ (show 6 ≤ MAX_PACKET_SIZE - 1 by decide)
  · have hword : ascii "HTTP" <+:
        ascii "HTTP/1.1 200 OK\r\nCACHE-CONTROL: max-age=120\r\nDATE: " := by decide
    simp only [List.append_assoc]
    exact hword.trans (List.prefix_append _ _)
  · simp only [List.mem_append, not_or]
    and_intros
    all_goals first | exact date.plain | exact hlocation | exact hplain | decide

theorem inert_sendNotify (eType : NotifyType_e) (address : Option InAddr) :
    Inert (sendNotify eType (WEB.getLocation address)) := by
  have hlocation := percent_not_mem_getLocation address
  refine Inert.take ?_ (show 6 ≤ MAX_PACKET_SIZE - 1 by decide)
  cases eType with
  | alive =>
      have hbegins : ascii "NOTIFY" <+:
          ascii "NOTIFY * HTTP/1.1\r\nHOST: 239.255.255.250:1900\r\n" := by decide
      simp only [List.append_assoc]
      refine ⟨.inl (hbegins.trans (List.prefix_append _ _)), ?_⟩
      simp only [List.mem_append, not_or]
      and_intros
      all_goals first | exact hlocation | decide
  | byebye =>
      have hbegins : ascii "NOTIFY" <+:
          ascii "NOTIFY * HTTP/1.1\r\nHOST: 239.255.255.250:1900\r\nNT: " := by
        decide
      simp only [List.append_assoc]
      refine ⟨.inl (hbegins.trans (List.prefix_append _ _)), ?_⟩
      simp only [List.mem_append, not_or]
      and_intros
      all_goals decide

end SSDP

/-! ### Runs -/

theorem kindAt_append {D : Type u} (kind : Datagram D → Bool)
    {sent : List (Datagram D)} {index : Nat} (hindex : index < sent.length)
    (more : List (Datagram D)) : kindAt kind (sent ++ more) index =
      kindAt kind sent index := by
  rw [kindAt, kindAt, List.getElem?_append_left hindex]

namespace SsdpNetwork

variable {D : Type u}

/-- The invariant: what the devices have sent is inert. -/
structure Inv (s : SsdpNetwork D) : Prop extends s.Sound where
  inert : ∀ datagram ∈ s.sent, datagram.origin ≠ .foreign →
    SSDP.Inert datagram.payload
  delivered_lt : ∀ delivery ∈ s.delivered, delivery.2 < s.sent.length
  returned_lt : ∀ delivery ∈ s.returned, delivery.2 < s.sent.length

theorem Inv.replied_lt {s : SsdpNetwork D} (hs : s.Inv) :
    ∀ delivery ∈ s.replied, delivery.2 < s.sent.length := by
  rw [hs.replied]
  exact fun delivery hdelivery =>
    hs.returned_lt delivery (List.mem_of_mem_filter hdelivery)

/-- What is sent in addition, and which deliveries are made and return, keeps the
invariant. -/
theorem Inv.extend {s : SsdpNetwork D} (hs : s.Inv) {devices : D → Device}
    {more : List (Datagram D)} {delivered returned : List (D × Nat)}
    (hinert : ∀ datagram ∈ more, datagram.origin ≠ .foreign →
      SSDP.Inert datagram.payload)
    (hdelivered : ∀ delivery ∈ delivered, delivery.2 < s.sent.length)
    (hreturned : ∀ delivery ∈ returned, delivery ∈ delivered)
    (hreplied : more.filterMap (·.origin.delivery) =
      returned.filter (kindAt Datagram.isSearch s.sent ·.2))
    (hanswered : (more.filterMap (·.origin.delivery)).filter
        (kindAt Datagram.isPlainSearch s.sent ·.2) =
      delivered.filter (kindAt Datagram.isPlainSearch s.sent ·.2))
    (hcarries : ∀ datagram ∈ more, ∀ d index, datagram.origin = .reply d index →
      ∃ search, s.sent[index]? = some search ∧ datagram.RepliesTo search)
    (hfaults : ∀ d index, devices d = .failed index →
      ∃ payload, s.sent[index]? = some ⟨.foreign, payload⟩) :
    Inv ⟨devices, s.sent ++ more, s.delivered ++ delivered,
      s.returned ++ returned⟩ := by
  have hold {index : Nat} {datagram : Datagram D}
      (hget : s.sent[index]? = some datagram) :
      (s.sent ++ more)[index]? = some datagram := by
    have hlt := (List.getElem?_eq_some_iff.mp hget).1
    rw [List.getElem?_append_left hlt, hget]
  have hsame (kind : Datagram D → Bool) {list : List (D × Nat)}
      (hlist : ∀ delivery ∈ list, delivery.2 < s.sent.length) :
      list.filter (kindAt kind (s.sent ++ more) ·.2) =
        list.filter (kindAt kind s.sent ·.2) :=
    List.filter_congr fun delivery hdelivery =>
      kindAt_append kind (hlist delivery hdelivery) more
  have hreturned_lt : ∀ delivery ∈ returned, delivery.2 < s.sent.length :=
    fun delivery hdelivery => hdelivered delivery (hreturned delivery hdelivery)
  have hmore_lt : ∀ delivery ∈ more.filterMap (·.origin.delivery),
      delivery.2 < s.sent.length := by
    rw [hreplied]
    exact fun delivery hdelivery =>
      hreturned_lt delivery (List.mem_of_mem_filter hdelivery)
  have hlater {list added : List (D × Nat)}
      (hlist : ∀ delivery ∈ list, delivery.2 < s.sent.length)
      (hadded : ∀ delivery ∈ added, delivery.2 < s.sent.length) :
      ∀ delivery ∈ list ++ added, delivery.2 < (s.sent ++ more).length := by
    intro delivery hdelivery
    rw [List.length_append]
    refine Nat.lt_of_lt_of_le ?_ (Nat.le_add_right _ _)
    exact (List.mem_append.mp hdelivery).elim (hlist delivery) (hadded delivery)
  refine ⟨⟨?_, ?_, ?_, ?_⟩, ?_, hlater hs.delivered_lt hdelivered,
    hlater hs.returned_lt hreturned_lt⟩
  · change (s.sent ++ more).filterMap _ = (s.returned ++ returned).filter _
    rw [List.filterMap_append, List.filter_append, hsame _ hs.returned_lt,
      hsame _ hreturned_lt, hreplied]
    exact congrArg (· ++ _) hs.replied
  · change ((s.sent ++ more).filterMap _).filter _ = (s.delivered ++ delivered).filter _
    rw [List.filterMap_append, List.filter_append, List.filter_append,
      hsame _ hs.delivered_lt, hsame _ hdelivered, hsame _ hmore_lt, hanswered]
    exact congrArg (· ++ _) ((hsame _ hs.replied_lt).trans hs.answered)
  · intro datagram hdatagram d index horigin
    rcases List.mem_append.mp hdatagram with hdatagram | hdatagram
    · obtain ⟨search, hget, hreplies⟩ := hs.carries datagram hdatagram d index horigin
      exact ⟨search, hold hget, hreplies⟩
    · obtain ⟨search, hget, hreplies⟩ := hcarries datagram hdatagram d index horigin
      exact ⟨search, hold hget, hreplies⟩
  · intro d index hfailed
    obtain ⟨payload, hget⟩ := hfaults d index hfailed
    exact ⟨payload, hold hget⟩
  · intro datagram hdatagram
    rcases List.mem_append.mp hdatagram with hdatagram | hdatagram
    · exact hs.inert datagram hdatagram
    · exact hinert datagram hdatagram

theorem Inv.notify {s : SsdpNetwork D} (hs : s.Inv) {devices : D → Device}
    (hdevices : ∀ d index, devices d = .failed index → s.devices d = .failed index)
    (d : D) (eType : SSDP.NotifyType_e) (address : Option InAddr) :
    Inv (({ s with devices := devices } : SsdpNetwork D).notify d eType address) := by
  have hextend := @extend D s hs devices
    [⟨.notify d, SSDP.sendNotify eType (WEB.getLocation address)⟩] [] []
    (fun datagram hdatagram _ => by
      rw [List.mem_singleton.mp hdatagram]
      exact SSDP.inert_sendNotify eType address)
    (List.forall_mem_nil _) (List.forall_mem_nil _) rfl rfl
    (fun datagram hdatagram other index horigin => by
      rw [List.mem_singleton.mp hdatagram] at horigin
      cases horigin)
    (fun other index hfailed => hs.faults other index (hdevices other index hfailed))
  rwa [List.append_nil, List.append_nil] at hextend

theorem Inv.foreign {s : SsdpNetwork D} (hs : s.Inv) (payload : List UInt8) :
    Inv { s with sent := s.sent ++ [⟨.foreign, payload⟩] } := by
  have hextend := @extend D s hs s.devices [⟨.foreign, payload⟩] [] []
    (fun datagram hdatagram horigin => by
      rw [List.mem_singleton.mp hdatagram] at horigin
      exact absurd rfl horigin)
    (List.forall_mem_nil _) (List.forall_mem_nil _) rfl rfl
    (fun datagram hdatagram other index horigin => by
      rw [List.mem_singleton.mp hdatagram] at horigin
      cases horigin)
    hs.faults
  rwa [List.append_nil, List.append_nil] at hextend

theorem init_inv : (init : SsdpNetwork D).Inv where
  replied := rfl
  answered := rfl
  carries := List.forall_mem_nil _
  faults _ _ hfailed := by cases hfailed
  inert := List.forall_mem_nil _
  delivered_lt := List.forall_mem_nil _
  returned_lt := List.forall_mem_nil _

theorem kindAt_isPlainSearch_false {sent : List (Datagram D)} {index : Nat}
    (hsearch : kindAt Datagram.isSearch sent index = false) :
    kindAt Datagram.isPlainSearch sent index = false := by
  unfold kindAt at *
  cases hget : sent[index]? with
  | none => rfl
  | some datagram =>
      rw [hget] at hsearch
      exact Bool.and_eq_false_imp.mpr fun h => absurd (hsearch.symm.trans h) nofun

/-- A device has come to the end of a datagram that is no search. -/
theorem Inv.ignored {s : SsdpNetwork D} (hs : s.Inv) {d : D} {index : Nat}
    (hlt : index < s.sent.length)
    (hsearch : kindAt Datagram.isSearch s.sent index = false) :
    Inv { s with
      sent := s.sent ++ []
      delivered := s.delivered ++ [(d, index)]
      returned := s.returned ++ [(d, index)] } := by
  have hplain := kindAt_isPlainSearch_false hsearch
  refine hs.extend (List.forall_mem_nil _) ?_ (fun _ => id) ?_ ?_
    (List.forall_mem_nil _) hs.faults
  · intro delivery hdelivery
    rwa [List.mem_singleton.mp hdelivery]
  · rw [List.filterMap_nil, List.filter_cons_of_neg (by simp [hsearch])]
    rfl
  · rw [List.filterMap_nil, List.filter_nil,
      List.filter_cons_of_neg (by simp [hplain])]
    rfl

/-- A device has replied to a search of a control point. -/
theorem Inv.reply {s : SsdpNetwork D} (hs : s.Inv) {d : D} {index : Nat}
    {payload : List UInt8} (hget : s.sent[index]? = some ⟨.foreign, payload⟩)
    (hsearch : SSDP.IsSearch (SSDP.received payload)) (date : SSDP.Date)
    (address : Option InAddr) :
    Inv { s with
      sent := s.sent ++ [⟨.reply d index, SSDP.replyMSearch date.text
        (WEB.getLocation address) (SSDP.effectiveTarget (SSDP.received payload))⟩]
      delivered := s.delivered ++ [(d, index)]
      returned := s.returned ++ [(d, index)] } := by
  have hlt := (List.getElem?_eq_some_iff.mp hget).1
  have hat : kindAt Datagram.isSearch s.sent index = true := by
    rw [kindAt, hget]
    exact decide_eq_true hsearch
  refine hs.extend ?_ ?_ (fun _ => id) ?_ rfl ?_ hs.faults
  · intro datagram hdatagram _
    rw [List.mem_singleton.mp hdatagram]
    exact SSDP.inert_replyMSearch date address hsearch.2
  · intro delivery hdelivery
    rwa [List.mem_singleton.mp hdelivery]
  · rw [List.filter_cons_of_pos (by simp [hat])]
    rfl
  · intro datagram hdatagram other position horigin
    rw [List.mem_singleton.mp hdatagram] at horigin ⊢
    obtain ⟨rfl, rfl⟩ := Origin.reply.inj horigin
    exact ⟨_, hget, date, address, rfl⟩

variable [DecidableEq D]

theorem update_failed {devices : D → Device} {d other : D} {device : Device}
    (hdevice : ∀ index, device ≠ .failed index) {index : Nat}
    (hfailed : Function.update devices d device other = .failed index) :
    devices other = .failed index := by
  by_cases hother : other = d
  · rw [hother, Function.update_self] at hfailed
    exact absurd hfailed (hdevice index)
  · rwa [Function.update_of_ne hother] at hfailed

variable {prints : List UInt8 → Bool}

/-- A device has failed on a datagram of a control point that is no plain search. -/
theorem Inv.fail {s : SsdpNetwork D} (hs : s.Inv) {d : D} {index : Nat}
    {payload : List UInt8} (hget : s.sent[index]? = some ⟨.foreign, payload⟩)
    (hplain : kindAt Datagram.isPlainSearch s.sent index = false) :
    Inv { s.setDevice d (.failed index) with
      delivered := s.delivered ++ [(d, index)] } := by
  have hlt := (List.getElem?_eq_some_iff.mp hget).1
  have hextend := @extend D s hs (Function.update s.devices d (.failed index)) []
    [(d, index)] [] (List.forall_mem_nil _)
    (fun delivery hdelivery => by rwa [List.mem_singleton.mp hdelivery])
    (List.forall_mem_nil _) rfl
    (by rw [List.filter_cons_of_neg (by simp [hplain])]; rfl) (List.forall_mem_nil _)
    (fun other position hfailed => by
      by_cases hother : other = d
      · rw [hother, Function.update_self] at hfailed
        obtain rfl := Device.failed.inj hfailed
        exact ⟨payload, hget⟩
      · rw [Function.update_of_ne hother] at hfailed
        exact hs.faults other position hfailed)
  rwa [List.append_nil, List.append_nil] at hextend

theorem Inv.deliver {s t : SsdpNetwork D} (hs : s.Inv)
    (hprints : SSDP.PrintsPlain prints) {d : D}
    {index : Nat} {date : SSDP.Date} {address : Option InAddr}
    (hstep : step prints s (.deliver d index date address) = some t) : t.Inv := by
  simp only [step] at hstep
  split at hstep
  · next datagram hstarted hget =>
    have hlt := (List.getElem?_eq_some_iff.mp hget).1
    obtain ⟨origin, payload⟩ := datagram
    by_cases horigin : origin = .foreign
    · subst horigin
      rcases SSDP.onFdReadable_cases prints date address payload with
        ⟨fault, hfault⟩ | hreplies
      · rw [hfault] at hstep
        obtain rfl := Option.some.inj hstep
        refine hs.fail hget ?_
        rw [kindAt, hget]
        by_contra hplain
        obtain ⟨hsearch, hpercent⟩ :=
          (Bool.and_eq_true_iff).mp (Bool.eq_true_of_not_eq_false hplain)
        rw [SSDP.onFdReadable_search (hprints _ (of_decide_eq_true hpercent))
          (of_decide_eq_true hsearch)] at hfault
        cases hfault
      · rw [hreplies] at hstep
        obtain rfl := Option.some.inj hstep
        by_cases hsearch : SSDP.IsSearch (SSDP.received payload)
        · rw [if_pos hsearch]
          exact hs.reply hget hsearch date address
        · rw [if_neg hsearch]
          refine hs.ignored hlt ?_
          rw [kindAt, hget]
          exact decide_eq_false hsearch
    · -- what a device has sent leads to nothing
      have hinert := hs.inert _ (List.mem_of_getElem? hget) horigin
      rw [SSDP.onFdReadable_inert hprints hinert] at hstep
      obtain rfl := Option.some.inj hstep
      refine hs.ignored hlt ?_
      rw [kindAt, hget]
      cases origin with
      | foreign => exact absurd rfl horigin
      | notify d => rfl
      | reply d index => rfl
  · cases hstep

/-- Every step keeps the invariant. -/
theorem step_inv (hprints : SSDP.PrintsPlain prints)
    {s t : SsdpNetwork D} {action : SsdpAction D} (hs : s.Inv)
    (hstep : step prints s action = some t) : t.Inv := by
  cases action with
  | start d address =>
      simp only [step] at hstep
      split at hstep
      · obtain rfl := Option.some.inj hstep
        exact hs.notify (fun _ _ => update_failed fun _ => Device.noConfusion) d _ _
      · cases hstep
  | timer d address =>
      simp only [step] at hstep
      split at hstep
      · obtain rfl := Option.some.inj hstep
        exact hs.notify (fun _ _ => id) d _ _
      · cases hstep
  | stop d address =>
      simp only [step] at hstep
      split at hstep
      · obtain rfl := Option.some.inj hstep
        exact hs.notify (fun _ _ => update_failed fun _ => Device.noConfusion) d _ _
      · cases hstep
  | foreign payload =>
      obtain rfl := Option.some.inj hstep
      exact hs.foreign payload
  | deliver d index date address => exact hs.deliver hprints hstep

/-- In every run, whatever datagrams are lost, doubled, delayed or overtaken, the
devices reply to the searches of control points, once for each delivery, and to nothing
else; no delivery of a plain search is left without a reply; and nothing that a device
has sent makes a device fail. -/
theorem devices_answer_searches
    (hprints : SSDP.PrintsPlain prints)
    {actions : List (SsdpAction D)} {s : SsdpNetwork D}
    (hrun : LabelledRun.run (step prints) init actions = some s) : s.Sound :=
  (LabelledRun.run_invariant (P := Inv)
    (fun _ _ _ hs hstep => step_inv hprints hs hstep) init_inv hrun).toSound

/-- A search for all devices. -/
def searchAll : List UInt8 := ascii "M-SEARCH * HTTP/1.1\r\nST: ssdp:all\r\n\r\n"

theorem noDate_noNul : 0 ∉ ([] : List UInt8) := List.not_mem_nil

theorem noDate_plain : SSDP.PERCENT ∉ ([] : List UInt8) := List.not_mem_nil

def noDate : SSDP.Date := ⟨⟨[], noDate_noNul⟩, noDate_plain⟩

/-- Two devices start, and a search and the reply to it come to both. -/
def oneSearch : List (SsdpAction Bool) :=
  [.start false none, .start true none, .foreign searchAll, .deliver true 2 noDate none,
    .deliver false 3 noDate none, .deliver true 0 noDate none]

/-- A log line that returns for a text without `%`. -/
def printsPlain (format : List UInt8) : Bool := SSDP.PERCENT ∉ format

theorem oneSearch_answered :
    ∃ s, LabelledRun.run (step printsPlain) init oneSearch = some s ∧
      s.replied = [(true, 2)] ∧
      s.delivered = [(true, 2), (false, 3), (true, 0)] ∧ s.Sound := by
  have hreplied : (LabelledRun.run (step printsPlain) init oneSearch).map
      (fun s => (s.replied, s.delivered)) =
      some ([(true, 2)], [(true, 2), (false, 3), (true, 0)]) := by decide +kernel
  obtain ⟨s, hrun, hs⟩ := Option.map_eq_some_iff.mp hreplied
  exact ⟨s, hrun, congrArg Prod.fst hs, congrArg Prod.snd hs,
    devices_answer_searches (fun format hplain => decide_eq_true hplain) hrun⟩

end SsdpNetwork

/-! ### Announcements in time -/

namespace SSDP

section Announcements

variable {I : Type u} [DecidableEq I]

end Announcements

end SSDP

end MyDirectFB

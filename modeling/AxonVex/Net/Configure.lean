import Mathlib.Data.List.TakeWhile
import Mathlib.Algebra.Group.Nat.Defs

/-!
# Net/Configure — the ports a transport is configured with

    blanks  sign  digits  anything                  what std::stoul reads
                  digits                            what a port should be

`configure` hands the text of a port to `std::stoul` and narrows the number to 16 bits.  So blanks,
a sign and whatever follows the digits are let through, and a number that is too large loses its
high bits.  The texts that are treated as they should be are the numerals of a port, and those that
`std::stoul` refuses (`configure_port_iff`).

`remote_port` is stored before the new remote is reported, inside the same `try`: an error handler
that throws makes a change look like a refusal.
-/

namespace AxonVex

/-! ## std::stoul -/

/-- A `std::string`, one character a byte. -/
abbrev Text := List Char

/-- `isspace`, in the locale of a C program. -/
def isBlank (c : Char) : Bool := c == ' ' || (9 ≤ c.toNat && c.toNat ≤ 13)

/-- The number that decimal digits denote. -/
def decimal (digits : Text) : ℕ := digits.foldl (fun n c => 10 * n + (c.toNat - '0'.toNat)) 0

/-- A sign, and what follows it. -/
def splitSign : Text → Bool × Text
  | '-' :: rest => (true, rest)
  | '+' :: rest => (false, rest)
  | text => (false, text)

/-- Whether a sign is negative, and the digits behind the blanks and the sign. -/
def signAndDigits (s : Text) : Bool × Text :=
  let (negative, rest) := splitSign (s.dropWhile isBlank)
  (negative, rest.takeWhile Char.isDigit)

/-- `std::stoul(s)` of a 64-bit `unsigned long`; `none` throws, `invalid_argument` where there is no
digit and `out_of_range` where there are too many. -/
def stoul (s : Text) : Option UInt64 :=
  let (negative, digits) := signAndDigits s
  if digits = [] then none
  else if 2 ^ 64 ≤ decimal digits then none
  else some (if negative then -UInt64.ofNat (decimal digits) else UInt64.ofNat (decimal digits))

/-- `static_cast<uint16_t>(std::stoul(s))`. -/
def narrowed (s : Text) : Option UInt16 := (stoul s).map UInt64.toUInt16

/-! ## The transports -/

/-- `TcpClient`, what `configure` sets. -/
structure TcpClient.Settings where
  host_ : Text
  port_ : UInt16

/-- `UdpSocket`, what `configure` sets. -/
structure UdpSocket.Settings where
  bindAddress_ : Text
  port_ : UInt16
  remoteHost_ : Text
  remotePort_ : UInt16

/-- `TcpClient::configure(key, value)`. -/
def TcpClient.Settings.configure (s : TcpClient.Settings) (key : String) (value : Text) :
    TcpClient.Settings × Bool :=
  if key = "host" then ({ s with host_ := value }, true)
  else if key = "port" then
    match narrowed value with
    | some port_ => ({ s with port_ }, true)
    | none => (s, false)
  else (s, false)

/-- How `updateRemoteAndReport` ends: an error handler may throw. -/
abbrev Report := UdpSocket.Settings → Bool

/-- `UdpSocket::configure(key, value)`; `none` throws.  `throws` says with which settings
`updateRemoteAndReport` does. -/
def UdpSocket.Settings.configure (s : UdpSocket.Settings) (throws : Report) (key : String)
    (value : Text) : Option (UdpSocket.Settings × Bool) :=
  if key = "bind" then some ({ s with bindAddress_ := value }, true)
  else if key = "port" then
    match narrowed value with
    | some port_ => some ({ s with port_ }, true)
    | none => some (s, false)
  else if key = "remote_host" then
    let s := { s with remoteHost_ := value }
    if throws s then none else some (s, true)
  else if key = "remote_port" then
    match narrowed value with
    | some remotePort_ =>
      -- stored when the report throws, and `catch (...)` does not take it back
      let s := { s with remotePort_ }
      some (s, !throws s)
    | none => some (s, false)
  else some (s, false)

/-! ## What a port should be -/

/-- The text is the numeral of a port. -/
structure IsPort (value : Text) (port : UInt16) : Prop where
  nonempty : value ≠ []
  digits : ∀ c ∈ value, c.isDigit = true
  denotes : decimal value = port.toNat

/-- A port was configured with the text as it should be: `before` and `after` are what was stored, and
`result` what was returned. -/
structure Configured (value : Text) (before after : UInt16) (result : Bool) : Prop where
  accepted : result = true ↔ ∃ port, IsPort value port
  stored : ∀ port, IsPort value port → after = port
  unchanged : result = false → after = before

def TcpClient.Settings.ConfiguresPort (s : TcpClient.Settings) (value : Text) : Prop :=
  Configured value s.port_ (s.configure "port" value).1.port_ (s.configure "port" value).2

namespace UdpSocket.Settings

variable (s : UdpSocket.Settings) (throws : Report) (value : Text)

def ConfiguresPort : Prop :=
  ∃ t result, s.configure throws "port" value = some (t, result) ∧
    Configured value s.port_ t.port_ result

def ConfiguresRemotePort : Prop :=
  ∃ t result, s.configure throws "remote_port" value = some (t, result) ∧
    Configured value s.remotePort_ t.remotePort_ result

/-- **The condition on a remote port**: a numeral that is reported without an exception; or another
text, which `std::stoul` refuses, or which gives the port that is there with a report that throws. -/
def RemoteClean : Prop :=
  (∃ port, IsPort value port ∧ throws { s with remotePort_ := port } = false) ∨
    (¬ ∃ port, IsPort value port) ∧
      (stoul value = none ∨ narrowed value = some s.remotePort_ ∧ throws s = true)

end UdpSocket.Settings

/-- **The condition on a port**: it is a numeral of one, or `std::stoul` refuses it. -/
def Clean (value : Text) : Prop := (∃ port, IsPort value port) ∨ stoul value = none

/-! ## What `std::stoul` makes of a text -/

variable {value : Text} {port : UInt16}

/-- A digit is no blank. -/
theorem isBlank_of_isDigit {c : Char} (h : c.isDigit = true) : isBlank c = false := by
  have hrange : 48 ≤ c.toNat ∧ c.toNat ≤ 57 := by
    simp only [Char.isDigit, Bool.and_eq_true, decide_eq_true_eq, UInt32.le_iff_toNat_le] at h
    exact h
  have hspace : c ≠ ' ' := by
    rintro rfl
    exact absurd hrange.1 (by decide)
  simp only [isBlank, Bool.or_eq_false_iff, beq_eq_false_iff_ne, Bool.and_eq_false_iff,
    decide_eq_false_iff_not]
  exact ⟨hspace, .inr (by omega)⟩

/-- A text that begins with a digit has no sign. -/
theorem splitSign_of_isDigit {c : Char} (h : c.isDigit = true) (rest : Text) :
    splitSign (c :: rest) = (false, c :: rest) := by
  unfold splitSign
  split
  next he =>
    obtain ⟨rfl, -⟩ := List.cons.inj he
    exact absurd h (by decide)
  next he =>
    obtain ⟨rfl, -⟩ := List.cons.inj he
    exact absurd h (by decide)
  · rfl

/-- A text of digits is all digits. -/
theorem signAndDigits_of_digits (hne : value ≠ []) (hdigits : ∀ c ∈ value, c.isDigit = true) :
    signAndDigits value = (false, value) := by
  obtain ⟨c, rest, rfl⟩ := List.exists_cons_of_ne_nil hne
  have hc : c.isDigit = true := hdigits c List.mem_cons_self
  unfold signAndDigits
  rw [List.dropWhile_cons_of_neg (by simp [isBlank_of_isDigit hc]), splitSign_of_isDigit hc]
  exact congrArg (Prod.mk false) (List.takeWhile_eq_self_iff.mpr hdigits)

/-- **A numeral of a port** is read as that port. -/
theorem IsPort.narrowed (h : IsPort value port) : narrowed value = some port := by
  have hlt : decimal value < 2 ^ 64 := by
    rw [h.denotes]
    have := port.toNat_lt
    omega
  have hstoul : stoul value = some (UInt64.ofNat port.toNat) := by
    unfold stoul
    rw [signAndDigits_of_digits h.nonempty h.digits]
    dsimp only
    rw [if_neg h.nonempty, if_neg hlt.not_ge, if_neg Bool.false_ne_true, h.denotes]
  rw [AxonVex.narrowed, hstoul, Option.map_some]
  refine congrArg some (UInt16.toNat_inj.mp ?_)
  have := port.toNat_lt
  rw [UInt64.toNat_toUInt16, UInt64.toNat_ofNat']
  omega

theorem narrowed_eq_none_iff : narrowed value = none ↔ stoul value = none := Option.map_eq_none_iff

theorem IsPort.unique {port' : UInt16} (h : IsPort value port) (h' : IsPort value port') :
    port = port' :=
  Option.some.inj (h.narrowed.symm.trans h'.narrowed)

/-! ## The condition -/

/-- A port that is stored when the text can be read, and only then. -/
theorem configured_iff (before : UInt16) :
    Configured value before ((narrowed value).getD before) (narrowed value).isSome ↔ Clean value := by
  constructor
  · intro h
    cases hread : stoul value with
    | none => exact .inr hread
    | some n =>
      have hsome : (narrowed value).isSome = true := by
        rw [narrowed, hread]
        rfl
      exact .inl (h.accepted.mp hsome)
  · rintro (⟨port, hport⟩ | hnone)
    · rw [hport.narrowed]
      exact ⟨iff_of_true rfl ⟨port, hport⟩, fun port' h' => hport.unique h',
        fun hfalse => absurd hfalse (by simp)⟩
    · have hnot (port : UInt16) : ¬ IsPort value port := fun hport =>
        absurd (hport.narrowed.symm.trans (narrowed_eq_none_iff.mpr hnone)) (by simp)
      rw [narrowed_eq_none_iff.mpr hnone]
      exact ⟨iff_of_false (by simp) fun ⟨port, hport⟩ => hnot port hport,
        fun port hport => absurd hport (hnot port), fun _ => rfl⟩

theorem TcpClient.Settings.configuresPort_iff (s : TcpClient.Settings) :
    s.ConfiguresPort value ↔ Clean value := by
  rw [← configured_iff s.port_]
  unfold ConfiguresPort configure
  cases hread : narrowed value with
  | none => rfl
  | some port => rfl

namespace UdpSocket.Settings

variable (s : UdpSocket.Settings) (throws : Report)

theorem configure_port (value : Text) : s.configure throws "port" value =
    some ({ s with port_ := (narrowed value).getD s.port_ }, (narrowed value).isSome) := by
  unfold configure
  cases hread : narrowed value with
  | none => rfl
  | some port => rfl

theorem configuresPort_iff : s.ConfiguresPort throws value ↔ Clean value := by
  rw [← configured_iff s.port_, ConfiguresPort, configure_port]
  constructor
  · rintro ⟨t, result, he, h⟩
    obtain ⟨rfl, rfl⟩ := Prod.mk.inj (Option.some.inj he)
    exact h
  · exact fun h => ⟨_, _, rfl, h⟩

theorem configure_remotePort_of_none (h : narrowed value = none) :
    s.configure throws "remote_port" value = some (s, false) := by
  unfold configure
  rw [h]
  rfl

theorem configure_remotePort_of_some (h : narrowed value = some port) :
    s.configure throws "remote_port" value =
      some ({ s with remotePort_ := port }, !throws { s with remotePort_ := port }) := by
  unfold configure
  rw [h]
  rfl

theorem configuresRemotePort_iff :
    s.ConfiguresRemotePort throws value ↔ s.RemoteClean throws value := by
  unfold ConfiguresRemotePort
  cases hread : narrowed value with
  | none =>
    have hnot : ¬ ∃ port, IsPort value port := fun ⟨port, hport⟩ =>
      absurd (hport.narrowed.symm.trans hread) (by simp)
    rw [configure_remotePort_of_none s throws hread]
    refine iff_of_true ⟨s, false, rfl, ?_, fun port hport => absurd ⟨port, hport⟩ hnot, fun _ => rfl⟩
      (.inr ⟨hnot, .inl (narrowed_eq_none_iff.mp hread)⟩)
    exact iff_of_false Bool.false_ne_true hnot
  | some port =>
    have hread' : stoul value ≠ none := fun h => by
      rw [narrowed_eq_none_iff.mpr h] at hread
      exact absurd hread (by simp)
    rw [configure_remotePort_of_some s throws hread]
    constructor
    · rintro ⟨t, result, he, h⟩
      obtain ⟨rfl, rfl⟩ := Prod.mk.inj (Option.some.inj he)
      by_cases hport : ∃ port, IsPort value port
      · obtain ⟨port', hport'⟩ := hport
        obtain rfl := Option.some.inj (hread.symm.trans hport'.narrowed)
        have haccepted := h.accepted.mpr ⟨port, hport'⟩
        exact .inl ⟨port, hport', by simpa using haccepted⟩
      · have hrefused : (!throws { s with remotePort_ := port }) = false :=
          Bool.eq_false_iff.mpr fun htrue => hport (h.accepted.mp htrue)
        -- what looks like a refusal has stored the port, so it was there before
        have hsame : port = s.remotePort_ := h.unchanged hrefused
        subst hsame
        exact .inr ⟨hport, .inr ⟨hread, by simpa using hrefused⟩⟩
    · rintro (⟨port', hport', hreport⟩ | ⟨hport, hnone | ⟨hsame, hreport⟩⟩)
      · obtain rfl := Option.some.inj (hread.symm.trans hport'.narrowed)
        refine ⟨_, _, rfl, iff_of_true ?_ ⟨port, hport'⟩, fun port'' h => hport'.unique h, ?_⟩
        · rw [hreport]
          rfl
        · intro hfalse
          rw [hreport] at hfalse
          exact absurd hfalse (by simp)
      · exact absurd hnone hread'
      · obtain rfl := Option.some.inj (hread.symm.trans hsame)
        refine ⟨_, _, rfl, iff_of_false ?_ hport, fun port' h => absurd ⟨port', h⟩ hport, fun _ => rfl⟩
        change ¬ (!throws s) = true
        rw [hreport]
        exact Bool.false_ne_true

end UdpSocket.Settings

/-- **When a port is configured as it should be**, by either transport under each of its keys. -/
theorem configure_port_iff (value : Text) :
    (∀ s : TcpClient.Settings, s.ConfiguresPort value ↔ Clean value) ∧
    (∀ (s : UdpSocket.Settings) (throws : Report), s.ConfiguresPort throws value ↔ Clean value) ∧
    ∀ (s : UdpSocket.Settings) (throws : Report),
      s.ConfiguresRemotePort throws value ↔ s.RemoteClean throws value :=
  ⟨fun s => s.configuresPort_iff, fun s throws => s.configuresPort_iff throws,
    fun s throws => s.configuresRemotePort_iff throws⟩

/-- A TCP client, before its port is configured. -/
def unconfigured : TcpClient.Settings := ⟨[], 0⟩

/-- **`70000` is accepted**, and the port is 4464. -/
theorem port_wraps : ¬ ∀ (s : TcpClient.Settings) (value : Text), s.ConfiguresPort value := by
  intro h
  have hstored : (unconfigured.configure "port" ['7', '0', '0', '0', '0']).1.port_ = 4464 ∧
      (unconfigured.configure "port" ['7', '0', '0', '0', '0']).2 = true := by decide
  obtain ⟨port, hport⟩ := (h unconfigured ['7', '0', '0', '0', '0']).accepted.mp hstored.2
  have hlarge : 70000 = port.toNat := hport.denotes
  have := port.toNat_lt
  omega

end AxonVex

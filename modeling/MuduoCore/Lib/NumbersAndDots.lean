import Mathlib.Data.List.Basic
import Mathlib.Algebra.Group.Nat.Defs

/-!
# Numbers and dots

IPv4 addresses as text, on a little-endian machine: `inet_ntop` prints the four bytes of an address in
the order in which they lie in memory, and `inet_addr` reads one to four numbers in the notation of
C, of which the last fills all bytes that are left.
-/

namespace MuduoCore.NumbersAndDots

def htons (hostshort : BitVec 16) : BitVec 16 :=
  hostshort.extractLsb' 0 8 ++ hostshort.extractLsb' 8 8

def ntohs (netshort : BitVec 16) : BitVec 16 := htons netshort

def htonl (hostlong : BitVec 32) : BitVec 32 :=
  hostlong.extractLsb' 0 8 ++ hostlong.extractLsb' 8 8 ++ hostlong.extractLsb' 16 8 ++
    hostlong.extractLsb' 24 8

def INADDR_NONE : BitVec 32 := 0xffffffff

/-- The four bytes in memory, the first at the lowest address. -/
def bytes (addr : BitVec 32) : List ℕ :=
  [0, 8, 16, 24].map fun start => (addr.extractLsb' start 8).toNat

def inetNtop (addr : BitVec 32) : List Char :=
  ['.'].intercalate ((bytes addr).map (Nat.toDigits 10))

/-- The value of a hexadecimal digit, and 16 for any other character. -/
def digitValue (c : Char) : ℕ :=
  if c.isDigit then c.toNat - 48
  else if 'a' ≤ c ∧ c ≤ 'f' then c.toNat - 87
  else if 'A' ≤ c ∧ c ≤ 'F' then c.toNat - 55
  else 16

/-- The base of a number in the notation of C, and the text without the prefix `0x`. -/
def radix : List Char → ℕ × List Char
  | '0' :: x :: c :: rest =>
      if (x = 'x' ∨ x = 'X') ∧ digitValue c < 16 then (16, c :: rest) else (8, '0' :: x :: c :: rest)
  | '0' :: rest => (8, '0' :: rest)
  | text => (10, text)

/-- With base 0, on a text that starts with a digit. -/
def strtoul (text : List Char) : ℕ × List Char :=
  let (base, digits) := radix text
  let isDigit c := decide (digitValue c < base)
  ((digits.takeWhile isDigit).foldl (fun value c => base * value + digitValue c) 0,
    digits.dropWhile isDigit)

def isspace (c : Char) : Bool := c = ' ' ∨ (9 ≤ c.toNat ∧ c.toNat ≤ 13)

/-- The end of the C string, or white space behind the address. -/
def isEnd : List Char → Bool
  | [] => true
  | c :: _ => c.toNat = 0 ∨ isspace c

/-- `value` is what the parts before `text` spell, and `dots` how many dots may still come. -/
def inetAton : (dots value : ℕ) → (text : List Char) → Option ℕ
  | _, _, [] => none
  | dots, value, c :: text =>
      if ¬c.isDigit then none
      else
        match dots, strtoul (c :: text) with
        | dots + 1, (part, '.' :: rest) =>
            if part < 256 then inetAton dots (256 * value + part) rest else none
        | dots, (part, rest) =>
            if isEnd rest ∧ part < 256 ^ (dots + 1) then some (256 ^ (dots + 1) * value + part)
            else none

def inetAddr (cp : List Char) : BitVec 32 :=
  match inetAton 3 0 cp with
  | some value => htonl (BitVec.ofNat 32 value)
  | none => INADDR_NONE

/-! ### One decimal number -/

theorem ntohs_htons (port : BitVec 16) : ntohs (htons port) = port := by
  unfold ntohs htons
  apply BitVec.eq_of_getLsbD_eq
  intro i hi
  simp
  grind

theorem htons_ntohs (port : BitVec 16) : htons (ntohs port) = port := ntohs_htons port

theorem digitValue_of_isDigit {c : Char} (h : c.isDigit = true) :
    digitValue c = c.toNat - '0'.toNat := if_pos h

theorem digitValue_lt_ten {c : Char} (h : c.isDigit = true) : digitValue c < 10 := by
  rw [digitValue_of_isDigit h]
  simp only [Char.isDigit, Bool.and_eq_true, decide_eq_true_eq] at h
  have hle : c.toNat ≤ '9'.toNat := UInt32.le_iff_toNat_le.mp h.2
  have h9 : '9'.toNat = 57 := rfl
  have h0 : '0'.toNat = 48 := rfl
  omega

theorem head_toDigits_ne_zero (n : ℕ) (hn : 0 < n) : (Nat.toDigits 10 n).head? ≠ some '0' := by
  induction n using Nat.strongRecOn with
  | _ n ih =>
    rw [Nat.toDigits_eq_if (by decide)]
    split
    · rename_i hlt
      simp only [List.head?_cons, ne_eq, Option.some.injEq, Nat.digitChar_eq_zero]
      omega
    · rename_i hge
      rw [List.head?_append_of_ne_nil _ Nat.toDigits_ne_nil]
      exact ih (n / 10) (by omega) (by omega)

theorem foldl_toDigits (n : ℕ) :
    (Nat.toDigits 10 n).foldl (fun value c => 10 * value + digitValue c) 0 = n := by
  calc (Nat.toDigits 10 n).foldl (fun value c => 10 * value + digitValue c) 0
      = (Nat.toDigits 10 n).foldl (fun value c => 10 * value + (c.toNat - '0'.toNat)) 0 := by
        refine List.foldl_ext _ _ 0 fun value c hc => ?_
        rw [digitValue_of_isDigit (Nat.isDigit_of_mem_toDigits (by decide) (by decide) hc)]
    _ = Nat.ofDigitChars 10 (Nat.toDigits 10 n) 0 := Nat.ofDigitChars_eq_foldl.symm
    _ = n := Nat.ofDigitChars_ten_toDigits

theorem strtoul_of_radix {text digits rest : List Char} {base : ℕ}
    (hradix : radix text = (base, digits ++ rest)) (hbase : base ≤ 16)
    (hdigits : ∀ c ∈ digits, digitValue c < base) (hrest : ∀ c ∈ rest.head?, c = '.') :
    strtoul text = (digits.foldl (fun value c => base * value + digitValue c) 0, rest) := by
  have hdigits' : ∀ c ∈ digits, decide (digitValue c < base) = true := fun c hc =>
    decide_eq_true (hdigits c hc)
  have hstop : rest.takeWhile (fun c => decide (digitValue c < base)) = [] ∧
      rest.dropWhile (fun c => decide (digitValue c < base)) = rest := by
    cases rest with
    | nil => exact ⟨rfl, rfl⟩
    | cons c rest =>
      obtain rfl : c = '.' := hrest c rfl
      have hdot : ¬decide (digitValue '.' < base) = true := by
        have : digitValue '.' = 16 := by decide
        rw [this, decide_eq_true_eq]
        omega
      exact ⟨List.takeWhile_cons_of_neg hdot, List.dropWhile_cons_of_neg hdot⟩
  simp only [strtoul, hradix]
  rw [List.takeWhile_append_of_pos hdigits', List.dropWhile_append_of_pos hdigits', hstop.1, hstop.2,
    List.append_nil]

/-- A printed number has no leading zero, so it is not taken for an octal or a hexadecimal one. -/
theorem strtoul_toDigits (n : ℕ) {rest : List Char} (hrest : ∀ c ∈ rest.head?, c = '.') :
    strtoul (Nat.toDigits 10 n ++ rest) = (n, rest) := by
  have hdigits : ∀ c ∈ Nat.toDigits 10 n, digitValue c < 10 := fun c hc =>
    digitValue_lt_ten (Nat.isDigit_of_mem_toDigits (by decide) (by decide) hc)
  rcases Nat.eq_zero_or_pos n with rfl | hn
  · have hradix : radix (Nat.toDigits 10 0 ++ rest) = (8, ['0'] ++ rest) := by
      rw [Nat.toDigits_zero, List.singleton_append]
      cases rest with
      | nil => rfl
      | cons c rest =>
        obtain rfl : c = '.' := hrest c rfl
        cases rest with
        | nil => rfl
        | cons d rest => simp [radix]
    have hzero : ∀ c ∈ ['0'], digitValue c < 8 := by
      intro c hc
      rw [List.mem_singleton.mp hc]
      decide
    exact strtoul_of_radix hradix (by decide) hzero hrest
  · have hradix : radix (Nat.toDigits 10 n ++ rest) = (10, Nat.toDigits 10 n ++ rest) := by
      have hhead := head_toDigits_ne_zero n hn
      cases hcons : Nat.toDigits 10 n with
      | nil => exact absurd hcons Nat.toDigits_ne_nil
      | cons c digits =>
        rw [hcons, List.head?_cons] at hhead
        have hc : c ≠ '0' := fun h => hhead (congrArg some h)
        simp only [List.cons_append]
        unfold radix
        split
        · rename_i heq
          exact absurd (List.cons.inj heq).1 hc
        · rename_i heq
          exact absurd (List.cons.inj heq).1 hc
        · rfl
    rw [strtoul_of_radix hradix (by decide) hdigits hrest, foldl_toDigits]

/-! ### A whole address -/

theorem toDigits_eq_cons (n : ℕ) :
    ∃ c digits, Nat.toDigits 10 n = c :: digits ∧ c.isDigit = true := by
  cases hcons : Nat.toDigits 10 n with
  | nil => exact absurd hcons Nat.toDigits_ne_nil
  | cons c digits =>
    exact ⟨c, digits, rfl,
      Nat.isDigit_of_mem_toDigits (n := n) (b := 10) (by decide) (by decide) (by simp [hcons])⟩

theorem inetAton_dot (dots value : ℕ) {n : ℕ} (hn : n < 256) (rest : List Char) :
    inetAton (dots + 1) value (Nat.toDigits 10 n ++ '.' :: rest)
      = inetAton dots (256 * value + n) rest := by
  have hread : strtoul (Nat.toDigits 10 n ++ '.' :: rest) = (n, '.' :: rest) :=
    strtoul_toDigits n (by simp)
  obtain ⟨c, digits, hcons, hdigit⟩ := toDigits_eq_cons n
  rw [hcons, List.cons_append] at hread ⊢
  rw [inetAton.eq_def]
  simp only [hdigit, hread, not_true_eq_false, if_false, if_pos hn]

theorem inetAton_last (value : ℕ) {n : ℕ} (hn : n < 256) :
    inetAton 0 value (Nat.toDigits 10 n) = some (256 * value + n) := by
  have hread : strtoul (Nat.toDigits 10 n ++ []) = (n, []) := strtoul_toDigits n (by simp)
  rw [List.append_nil] at hread
  obtain ⟨c, digits, hcons, hdigit⟩ := toDigits_eq_cons n
  rw [hcons] at hread ⊢
  have hlast : isEnd [] = true ∧ n < 256 ^ (0 + 1) := ⟨rfl, hn⟩
  rw [inetAton.eq_def]
  simp only [hdigit, hread, not_true_eq_false, if_false, if_pos hlast]
  rfl

/-- `k + 1` decimal bytes, joined by dots, where `k` dots may still come. -/
theorem inetAton_intercalate (bs : List ℕ) (dots value : ℕ) (hlength : bs.length = dots + 1)
    (hbytes : ∀ b ∈ bs, b < 256) :
    inetAton dots value (['.'].intercalate (bs.map (Nat.toDigits 10)))
      = some (bs.foldl (fun value b => 256 * value + b) value) := by
  induction bs generalizing dots value with
  | nil => cases hlength
  | cons b bs ih =>
    have hb : b < 256 := hbytes b List.mem_cons_self
    cases bs with
    | nil =>
      obtain rfl : dots = 0 := by simpa using hlength.symm
      simpa [List.intercalate] using inetAton_last value hb
    | cons b' bs =>
      obtain ⟨dots, rfl⟩ : ∃ k, dots = k + 1 := ⟨bs.length, by simpa using hlength.symm⟩
      calc inetAton (dots + 1) value (['.'].intercalate ((b :: b' :: bs).map (Nat.toDigits 10)))
          = inetAton (dots + 1) value (Nat.toDigits 10 b ++
              '.' :: ['.'].intercalate ((b' :: bs).map (Nat.toDigits 10))) := by
            simp [List.intercalate]
        _ = inetAton dots (256 * value + b)
              (['.'].intercalate ((b' :: bs).map (Nat.toDigits 10))) :=
            inetAton_dot dots value hb _
        _ = some ((b :: b' :: bs).foldl (fun value b => 256 * value + b) value) :=
            ih dots (256 * value + b) (by simpa using hlength)
              fun c hc => hbytes c (List.mem_cons_of_mem _ hc)

theorem bytes_lt (addr : BitVec 32) : ∀ b ∈ bytes addr, b < 256 := by
  intro b hb
  obtain ⟨start, -, rfl⟩ := List.mem_map.mp hb
  exact BitVec.isLt _

theorem toNat_append {m n : ℕ} (high : BitVec m) (low : BitVec n) :
    (high ++ low).toNat = high.toNat * 2 ^ n + low.toNat := by
  rw [BitVec.toNat_append, ← Nat.shiftLeft_add_eq_or_of_lt low.isLt, Nat.shiftLeft_eq]

/-- The bytes `p`, `q`, `r` and `t` of an address, the first at the bottom. -/
def Spells (addr : BitVec 32) (p q r t : ℕ) : Prop :=
  (p < 256 ∧ q < 256 ∧ r < 256 ∧ t < 256) ∧ addr.toNat = p + 256 * (q + 256 * (r + 256 * t))

theorem exists_spells (addr : BitVec 32) : ∃ p q r t, Spells addr p q r t := by
  have hlt := addr.isLt
  refine ⟨addr.toNat % 256, addr.toNat / 256 % 256, addr.toNat / 256 / 256 % 256,
    addr.toNat / 256 / 256 / 256, ⟨by omega, by omega, by omega, by omega⟩, by omega⟩

theorem Spells.bytes {addr : BitVec 32} {p q r t : ℕ} (h : Spells addr p q r t) :
    bytes addr = [p, q, r, t] := by
  obtain ⟨⟨hp, hq, hr, ht⟩, haddr⟩ := h
  simp only [NumbersAndDots.bytes, List.map_cons, List.map_nil, BitVec.extractLsb'_toNat,
    Nat.shiftRight_eq_div_pow, haddr, List.cons.injEq, and_true]
  exact ⟨by omega, by omega, by omega, by omega⟩

theorem Spells.htonl {addr : BitVec 32} {p q r t : ℕ} (h : Spells addr p q r t) :
    Spells (htonl addr) t r q p := by
  have hbytes := h.bytes
  simp only [NumbersAndDots.bytes, List.map_cons, List.map_nil, List.cons.injEq, and_true] at hbytes
  obtain ⟨hp, hq, hr, ht⟩ := hbytes
  refine ⟨⟨h.1.2.2.2, h.1.2.2.1, h.1.2.1, h.1.1⟩, ?_⟩
  simp only [NumbersAndDots.htonl, toNat_append, hp, hq, hr, ht]
  omega

theorem Spells.unique {addr addr' : BitVec 32} {p q r t : ℕ} (h : Spells addr p q r t)
    (h' : Spells addr' p q r t) : addr = addr' :=
  BitVec.eq_of_toNat_eq (h.2.trans h'.2.symm)

/-- The number that the bytes spell, the first at the top, is the address in host order. -/
theorem htonl_ofNat_bytes (addr : BitVec 32) :
    htonl (BitVec.ofNat 32 ((bytes addr).foldl (fun value b => 256 * value + b) 0)) = addr := by
  obtain ⟨p, q, r, t, h⟩ := exists_spells addr
  have hhost : Spells (BitVec.ofNat 32 ((bytes addr).foldl (fun value b => 256 * value + b) 0))
      t r q p := by
    obtain ⟨hp, hq, hr, ht⟩ := h.1
    refine ⟨⟨ht, hr, hq, hp⟩, ?_⟩
    rw [h.bytes, BitVec.toNat_ofNat]
    simp only [List.foldl_cons, List.foldl_nil]
    omega
  exact hhost.htonl.unique h

/-- What `inet_ntop` prints, `inet_addr` reads back. -/
theorem inetAddr_inetNtop (addr : BitVec 32) : inetAddr (inetNtop addr) = addr := by
  rw [inetAddr, inetNtop, inetAton_intercalate (bytes addr) 3 0 rfl (bytes_lt addr)]
  exact htonl_ofNat_bytes addr

theorem Spells.inetNtop {addr : BitVec 32} {p q r t : ℕ} (h : Spells addr p q r t) :
    inetNtop addr = Nat.toDigits 10 p ++ '.' :: (Nat.toDigits 10 q ++
      '.' :: (Nat.toDigits 10 r ++ '.' :: Nat.toDigits 10 t)) := by
  simp [NumbersAndDots.inetNtop, h.bytes, List.intercalate]

theorem mem_inetNtop {addr : BitVec 32} {c : Char} (hc : c ∈ inetNtop addr) :
    c = '.' ∨ c.isDigit = true := by
  have hdigit : ∀ n, c ∈ Nat.toDigits 10 n → c.isDigit = true := fun n hmem =>
    Nat.isDigit_of_mem_toDigits (by decide) (by decide) hmem
  obtain ⟨p, q, r, t, h⟩ := exists_spells addr
  simp only [h.inetNtop, List.mem_append, List.mem_cons] at hc
  rcases hc with hp | rfl | hq | rfl | hr | rfl | ht
  · exact .inr (hdigit p hp)
  · exact .inl rfl
  · exact .inr (hdigit q hq)
  · exact .inl rfl
  · exact .inr (hdigit r hr)
  · exact .inl rfl
  · exact .inr (hdigit t ht)

theorem length_inetNtop_le (addr : BitVec 32) : (inetNtop addr).length ≤ 15 := by
  have hthree : ∀ n < 256, (Nat.toDigits 10 n).length ≤ 3 := fun n hn =>
    (Nat.length_toDigits_le_iff (by decide) (by decide)).mpr (by omega)
  obtain ⟨p, q, r, t, h⟩ := exists_spells addr
  obtain ⟨hp, hq, hr, ht⟩ := h.1
  simp only [h.inetNtop, List.length_append, List.length_cons]
  have := hthree p hp
  have := hthree q hq
  have := hthree r hr
  have := hthree t ht
  omega

end MuduoCore.NumbersAndDots

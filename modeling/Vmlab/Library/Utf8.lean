import Mathlib

/-!
# Lossy UTF-8

Each longest beginning of a character that cannot be completed becomes one replacement character. Decoding two parts
apart gives what decoding the whole gives exactly when no character takes more than one byte.
-/

namespace Vmlab.Library.Utf8

open List

variable {bytes rest : List UInt8} {first : UInt8}

def replacement : Char := '�'

def high (byte : UInt8) : Bool := 0x80 ≤ byte.toNat

def continuation (byte : UInt8) : Bool := 0x80 ≤ byte.toNat && byte.toNat < 0xC0

def leads (first second : UInt8) : Bool :=
  let lead := first.toNat
  let next := second.toNat
  continuation second &&
    ((0xC2 ≤ lead && lead < 0xE0) || (lead = 0xE0 && 0xA0 ≤ next) || (0xE1 ≤ lead && lead < 0xED) ||
      (lead = 0xED && next < 0xA0) || (0xEE ≤ lead && lead < 0xF0) || (lead = 0xF0 && 0x90 ≤ next) ||
      (0xF1 ≤ lead && lead < 0xF4) || (lead = 0xF4 && next < 0x90))

def decodeUnit (first : UInt8) (rest : List UInt8) : Char × Nat :=
  if !high first then (Char.ofNat first.toNat, 0)
  else
    match rest with
    | [] => (replacement, 0)
    | second :: rest =>
      if !leads first second then (replacement, 0)
      else if first.toNat < 0xE0 then (Char.ofNat (first.toNat % 32 * 64 + second.toNat % 64), 1)
      else
        match rest with
        | [] => (replacement, 1)
        | third :: rest =>
          if !continuation third then (replacement, 1)
          else if first.toNat < 0xF0 then
            (Char.ofNat (first.toNat % 16 * 4096 + second.toNat % 64 * 64 + third.toNat % 64), 2)
          else
            match rest with
            | [] => (replacement, 2)
            | fourth :: _ =>
              if !continuation fourth then (replacement, 2)
              else
                (Char.ofNat (first.toNat % 8 * 262144 + second.toNat % 64 * 4096 + third.toNat % 64 * 64 +
                  fourth.toNat % 64), 3)

def lossyWithin : Nat → List UInt8 → List Char
  | 0, _ => []
  | _ + 1, [] => []
  | fuel + 1, first :: rest =>
    (decodeUnit first rest).1 :: lossyWithin fuel (rest.drop (decodeUnit first rest).2)

def lossy (bytes : List UInt8) : List Char := lossyWithin bytes.length bytes

theorem lossyWithin_enough {fuel : Nat} (enough : bytes.length ≤ fuel) : lossyWithin fuel bytes = lossy bytes := by
  have agree : ∀ (first second : Nat) (bytes : List UInt8), bytes.length ≤ first → bytes.length ≤ second →
      lossyWithin first bytes = lossyWithin second bytes := by
    intro first
    induction first with
    | zero =>
      intro second bytes left _
      cases bytes with
      | nil => cases second <;> rfl
      | cons byte bytes => simp at left
    | succ first ih =>
      intro second bytes left right
      cases bytes with
      | nil => cases second <;> rfl
      | cons byte bytes =>
        cases second with
        | zero => simp at right
        | succ second =>
          have shorter := length_drop (i := (decodeUnit byte bytes).2) (l := bytes)
          simp only [length_cons] at left right
          simp only [lossyWithin]
          rw [ih second _ (by omega) (by omega)]
  exact agree fuel bytes.length bytes enough (Nat.le_refl _)

@[simp] theorem lossy_nil : lossy [] = [] := rfl

theorem lossy_cons (first : UInt8) (rest : List UInt8) :
    lossy (first :: rest) = (decodeUnit first rest).1 :: lossy (rest.drop (decodeUnit first rest).2) := by
  show (decodeUnit first rest).1 :: lossyWithin rest.length (rest.drop (decodeUnit first rest).2) = _
  rw [lossyWithin_enough (by simp)]

/-! ### One byte at a time -/

def byteChar (byte : UInt8) : Char := if high byte then replacement else Char.ofNat byte.toNat

def bytewise : List UInt8 → Bool
  | first :: second :: rest => !leads first second && bytewise (second :: rest)
  | _ => true

theorem lossy_singleton (byte : UInt8) : lossy [byte] = [byteChar byte] := by
  unfold byteChar
  rw [lossy_cons]
  cases kind : high byte <;> simp [decodeUnit, kind]

theorem leads_high {second : UInt8} (known : leads first second = true) : high first = true ∧ high second = true := by
  simp only [leads, continuation, high, Bool.and_eq_true, Bool.or_eq_true, decide_eq_true_eq] at known ⊢
  omega

theorem decodeUnit_apart (apart : bytewise (first :: rest) = true) : decodeUnit first rest = (byteChar first, 0) := by
  unfold decodeUnit byteChar
  cases kind : high first with
  | false => rfl
  | true =>
    cases rest with
    | nil => rfl
    | cons second rest =>
      simp only [bytewise, Bool.and_eq_true] at apart
      simp [apart.1]

theorem bytewise_tail (apart : bytewise (first :: rest) = true) : bytewise rest = true := by
  cases rest with
  | nil => rfl
  | cons second rest =>
    simp only [bytewise, Bool.and_eq_true] at apart
    exact apart.2

theorem lossy_of_bytewise (apart : bytewise bytes = true) : lossy bytes = bytes.map byteChar := by
  induction bytes with
  | nil => rfl
  | cons first rest ih =>
    rw [lossy_cons, decodeUnit_apart apart]
    simp only [drop_zero, map_cons]
    rw [ih (bytewise_tail apart)]

theorem bytewise_append {left right : List UInt8} (apart : bytewise (left ++ right) = true) :
    bytewise left = true ∧ bytewise right = true := by
  induction left with
  | nil => exact ⟨rfl, apart⟩
  | cons first left ih =>
    have rest := ih (bytewise_tail apart)
    refine ⟨?_, rest.2⟩
    cases left with
    | nil => rfl
    | cons second left =>
      simp only [cons_append, bytewise, Bool.and_eq_true] at apart ⊢
      exact ⟨apart.1, rest.1⟩

theorem flatMap_lossy_of_bytewise {parts : List (List UInt8)} (apart : bytewise parts.flatten = true) :
    parts.flatMap lossy = parts.flatten.map byteChar := by
  induction parts with
  | nil => rfl
  | cons part parts ih =>
    rw [flatten_cons] at apart
    obtain ⟨here, later⟩ := bytewise_append apart
    rw [flatMap_cons, ih later, lossy_of_bytewise here, flatten_cons, map_append]

/-! ### Counting what is not ASCII -/

def nonAscii (char : Char) : Bool := 0x80 ≤ char.toNat

theorem nonAscii_ofNat {code : Nat} (small : code < 0x80) : nonAscii (Char.ofNat code) = false := by
  have valid : code.isValidChar := .inl (by omega)
  have same : (Char.ofNat code).toNat = code := by
    simp [Char.ofNat, valid, Char.toNat, Char.ofNatAux]
  simp only [nonAscii, same, decide_eq_false_iff_not]
  omega

theorem decodeUnit_takes :
    ((decodeUnit first rest).2 = 0 ∨ ∃ second later, rest = second :: later ∧ leads first second = true) ∧
      (high first = false → nonAscii (decodeUnit first rest).1 = false) := by
  constructor
  · unfold decodeUnit
    split
    · exact .inl rfl
    split
    · exact .inl rfl
    · next second later =>
      split
      · exact .inl rfl
      · next known => exact .inr ⟨second, later, rfl, by simpa using known⟩
  intro low
  unfold decodeUnit
  rw [if_pos (by simp [low])]
  exact nonAscii_ofNat (by simpa [high] using low)

theorem countP_lossy_le (bytes : List UInt8) : (lossy bytes).countP nonAscii ≤ bytes.countP high := by
  have bounded : ∀ (size : Nat) (bytes : List UInt8), bytes.length ≤ size →
      (lossy bytes).countP nonAscii ≤ bytes.countP high := by
    intro size
    induction size with
    | zero =>
      intro bytes short
      cases bytes with
      | nil => exact Nat.le_refl _
      | cons first rest => simp at short
    | succ size ih =>
      intro bytes short
      cases bytes with
      | nil => exact Nat.le_refl _
      | cons first rest =>
        have shorter : (rest.drop (decodeUnit first rest).2).length ≤ rest.length := by simp
        have later := ih (rest.drop (decodeUnit first rest).2) (by simp only [length_cons] at short; omega)
        have fewer : (rest.drop (decodeUnit first rest).2).countP high ≤ rest.countP high :=
          (drop_sublist _ rest).countP_le
        rw [lossy_cons, countP_cons, countP_cons]
        cases kind : high first with
        | false =>
          rw [decodeUnit_takes.2 kind]
          simp only [Bool.false_eq_true, if_false]
          omega
        | true =>
          simp only [if_true]
          split
          · omega
          · omega
  exact bounded bytes.length bytes (Nat.le_refl _)

theorem decodeUnit_joined {first second : UInt8} {later : List UInt8} (known : leads first second = true) :
    1 ≤ (decodeUnit first (second :: later)).2 := by
  unfold decodeUnit
  rw [if_neg (by simp [(leads_high known).1])]
  dsimp only
  rw [if_neg (by simp [known])]
  split
  · exact Nat.le_refl 1
  split
  · exact Nat.le_refl 1
  split
  · exact Nat.le_refl 1
  split
  · exact Nat.le_succ 1
  split
  · exact Nat.le_succ 1
  · split <;> simp

theorem bytewise_cons_false (joined : bytewise (first :: rest) = false) :
    bytewise rest = false ∨ ∃ second later, rest = second :: later ∧ leads first second = true := by
  cases rest with
  | nil => cases joined
  | cons second later =>
    simp only [bytewise, Bool.and_eq_false_iff, Bool.not_eq_false'] at joined
    rcases joined with known | later
    · exact .inr ⟨_, _, rfl, known⟩
    · exact .inl later

theorem countP_lossy_lt (joined : bytewise bytes = false) : (lossy bytes).countP nonAscii < bytes.countP high := by
  induction bytes with
  | nil => cases joined
  | cons first rest ih =>
    have here : (if nonAscii (decodeUnit first rest).1 = true then 1 else 0) ≤ if high first = true then 1 else 0 := by
      cases kind : high first with
      | false => simp [decodeUnit_takes.2 kind]
      | true => split <;> simp
    rw [lossy_cons, countP_cons, countP_cons]
    by_cases pair : ∃ second later, rest = second :: later ∧ leads first second = true
    · obtain ⟨second, later, rfl, known⟩ := pair
      -- The second byte is high and goes with the first.
      obtain ⟨taken, count⟩ := Nat.exists_eq_add_of_le (@decodeUnit_joined first second later known)
      have rest := countP_lossy_le (later.drop taken)
      have fewer : (later.drop taken).countP high ≤ later.countP high := (drop_sublist _ later).countP_le
      rw [count, Nat.add_comm 1 taken, drop_succ_cons, countP_cons, (leads_high known).2]
      simp only [if_true]
      omega
    have alone : (decodeUnit first rest).2 = 0 := decodeUnit_takes.1.resolve_right pair
    have less := ih ((bytewise_cons_false joined).resolve_right pair)
    rw [alone, drop_zero]
    omega

end Vmlab.Library.Utf8

import DomainAI.Data.Text

/-!
# Strings of the host language

A string is a list of UTF-16 units and need not be well-formed: cutting one at a
number of units can leave half of a surrogate pair.  Bytes hold characters, so
half a pair does not survive the way to a file and back.
-/

namespace DomainAI

abbrev HostString := List UInt16

namespace HostString

def isHighSurrogate (u : UInt16) : Bool :=
  0xD800 ≤ u.toNat && u.toNat ≤ 0xDBFF

def isLowSurrogate (u : UInt16) : Bool :=
  0xDC00 ≤ u.toNat && u.toNat ≤ 0xDFFF

def isSurrogate (u : UInt16) : Bool :=
  isHighSurrogate u || isLowSurrogate u

/-- The character of a unit on its own; half a pair is replaced. -/
def character (u : UInt16) : Char :=
  if isSurrogate u then '?' else Char.ofNat u.toNat

def pairCode (high low : UInt16) : Nat :=
  0x10000 + (high.toNat - 0xD800) * 0x400 + (low.toNat - 0xDC00)

def encodeToByteArray : HostString -> Text
  | [] => []
  | [u] => [character u]
  | u :: v :: rest =>
      if isHighSurrogate u && isLowSurrogate v then
        Char.ofNat (pairCode u v) :: encodeToByteArray rest
      else character u :: encodeToByteArray (v :: rest)

def units (c : Char) : HostString :=
  (Text.utf16 c).map UInt16.ofNat

def decodeToString (t : Text) : HostString :=
  t.flatMap units

/-- Every surrogate is half of a pair. -/
def wellFormed : HostString -> Bool
  | [] => true
  | [u] => !isSurrogate u
  | u :: v :: rest =>
      if isHighSurrogate u && isLowSurrogate v then wellFormed rest
      else !isSurrogate u && wellFormed (v :: rest)

/-!
# Characters and units
-/

theorem toNat_ofNat_of_valid {n : Nat} (h : n.isValidChar) :
    (Char.ofNat n).toNat = n := by
  rw [Char.ofNat, dif_pos h]
  rfl

theorem units_character {u : UInt16} (h : isSurrogate u = false) :
    units (character u) = [u] := by
  have hlt : u.toNat < 0x10000 := u.toNat_lt
  have hvalid : u.toNat.isValidChar := by
    simp only [isSurrogate, isHighSurrogate, isLowSurrogate, Bool.or_eq_false_iff,
      Bool.and_eq_false_imp, decide_eq_true_eq, decide_eq_false_iff_not] at h
    unfold Nat.isValidChar
    omega
  have hcode : (character u).toNat = u.toNat := by
    rw [character, h]
    exact toNat_ofNat_of_valid hvalid
  rw [units, Text.utf16, hcode, if_pos hlt, List.map_singleton,
    UInt16.ofNat_toNat]

theorem units_ofNat_pairCode {u v : UInt16} (hu : isHighSurrogate u = true)
    (hv : isLowSurrogate v = true) :
    units (Char.ofNat (pairCode u v)) = [u, v] := by
  simp only [isHighSurrogate, isLowSurrogate, Bool.and_eq_true,
    decide_eq_true_eq] at hu hv
  have hcode : (Char.ofNat (pairCode u v)).toNat = pairCode u v := by
    apply toNat_ofNat_of_valid
    unfold Nat.isValidChar pairCode
    omega
  have hhigh : 0xD800 + (pairCode u v - 0x10000) / 0x400 = u.toNat := by
    unfold pairCode
    omega
  have hlow : 0xDC00 + (pairCode u v - 0x10000) % 0x400 = v.toNat := by
    unfold pairCode
    omega
  have hlarge : ¬ pairCode u v < 0x10000 := by
    unfold pairCode
    omega
  rw [units, Text.utf16, hcode, if_neg hlarge, hhigh, hlow, List.map_cons,
    List.map_singleton, UInt16.ofNat_toNat, UInt16.ofNat_toNat]

theorem units_character_of_surrogate {u : UInt16} (h : isSurrogate u = true) :
    exists w, units (character u) = [w] ∧ w ≠ u := by
  exists 63
  constructor
  · rw [character, h]
    rfl
  · intro heq
    rw [← heq] at h
    cases h

theorem units_character_eq {u : UInt16} :
    units (character u) = [u] <-> isSurrogate u = false := by
  constructor
  · intro h
    cases hu : isSurrogate u with
    | false => rfl
    | true =>
        rcases units_character_of_surrogate hu with ⟨w, hw, hne⟩
        rw [hw] at h
        exact absurd (List.singleton_inj.mp h) hne
  · exact units_character

theorem length_units_character (u : UInt16) :
    (units (character u)).length = 1 := by
  cases hu : isSurrogate u with
  | false => rw [units_character hu, List.length_singleton]
  | true =>
      rcases units_character_of_surrogate hu with ⟨w, hw, _⟩
      rw [hw, List.length_singleton]

/-- A string comes back from its bytes exactly when it is well-formed. -/
theorem decodeToString_encodeToByteArray (s : HostString) :
    decodeToString (encodeToByteArray s) = s <-> wellFormed s = true := by
  induction s using encodeToByteArray.induct with
  | case1 => simp [encodeToByteArray, decodeToString, wellFormed]
  | case2 u =>
      rw [encodeToByteArray, wellFormed, decodeToString, List.flatMap_singleton,
        units_character_eq, Bool.not_eq_true']
  | case3 u v rest hpair ih =>
      have hboth := Bool.and_eq_true_iff.mp hpair
      rw [encodeToByteArray, if_pos hpair, wellFormed, if_pos hpair, ← ih,
        decodeToString, List.flatMap_cons,
        units_ofNat_pairCode hboth.left hboth.right]
      constructor
      · intro h
        exact (List.cons.inj (List.cons.inj h).right).right
      · intro h
        rw [decodeToString] at h
        rw [h]
        rfl
  | case4 u v rest hpair ih =>
      rw [encodeToByteArray, if_neg hpair, wellFormed, if_neg hpair,
        Bool.and_eq_true_iff, ← ih, Bool.not_eq_true', ← units_character_eq,
        decodeToString, List.flatMap_cons]
      constructor
      · intro h
        exact List.append_inj (h.trans (List.singleton_append).symm)
          (length_units_character u)
      · intro h
        rw [decodeToString] at h
        rw [h.left, h.right, List.singleton_append]

/-!
# Texts as strings
-/

theorem units_cases (c : Char) :
    (exists u, units c = [u] ∧ isSurrogate u = false) ∨
      exists u v, units c = [u, v] ∧ isHighSurrogate u = true ∧
        isLowSurrogate v = true := by
  have hvalid : c.toNat.isValidChar := c.valid
  unfold Nat.isValidChar at hvalid
  by_cases hsmall : c.toNat < 0x10000
  · left
    exists UInt16.ofNat c.toNat
    have hunit : (UInt16.ofNat c.toNat).toNat = c.toNat :=
      UInt16.toNat_ofNat_of_lt' hsmall
    constructor
    · rw [units, Text.utf16, if_pos hsmall, List.map_singleton]
    · simp only [isSurrogate, isHighSurrogate, isLowSurrogate, hunit,
        Bool.or_eq_false_iff, Bool.and_eq_false_imp, decide_eq_true_eq,
        decide_eq_false_iff_not]
      omega
  · right
    let high := 0xD800 + (c.toNat - 0x10000) / 0x400
    let low := 0xDC00 + (c.toNat - 0x10000) % 0x400
    have hhigh : 0xD800 ≤ high ∧ high ≤ 0xDBFF := by
      simp only [high]
      omega
    have hlow : 0xDC00 ≤ low ∧ low ≤ 0xDFFF := by
      simp only [low]
      omega
    have hhighUnit : (UInt16.ofNat high).toNat = high :=
      UInt16.toNat_ofNat_of_lt' (Nat.lt_of_le_of_lt hhigh.right (by decide))
    have hlowUnit : (UInt16.ofNat low).toNat = low :=
      UInt16.toNat_ofNat_of_lt' (Nat.lt_of_le_of_lt hlow.right (by decide))
    refine ⟨UInt16.ofNat high, UInt16.ofNat low, ?_, ?_, ?_⟩
    · rw [units, Text.utf16, if_neg hsmall, List.map_cons, List.map_singleton]
    · simp [isHighSurrogate, hhighUnit, hhigh]
    · simp [isLowSurrogate, hlowUnit, hlow]

theorem wellFormed_units_append (c : Char) (rest : HostString) :
    wellFormed (units c ++ rest) = wellFormed rest := by
  rcases units_cases c with ⟨u, hu, hsurrogate⟩ | ⟨u, v, huv, hhigh, hlow⟩
  · rw [hu, List.singleton_append]
    cases rest with
    | nil => simp [wellFormed, hsurrogate]
    | cons v rest =>
        have hhigh : isHighSurrogate u = false :=
          (Bool.or_eq_false_iff.mp hsurrogate).left
        simp [wellFormed, hsurrogate, hhigh]
  · rw [huv]
    simp [wellFormed, hhigh, hlow]

theorem wellFormed_decodeToString (t : Text) :
    wellFormed (decodeToString t) = true := by
  induction t with
  | nil => rfl
  | cons c t ih =>
      rw [decodeToString, List.flatMap_cons, wellFormed_units_append]
      exact ih

theorem character_of_units {c : Char} {u : UInt16} (h : units c = [u])
    (hu : isSurrogate u = false) : character u = c := by
  rw [units, Text.utf16] at h
  split at h
  · rename_i hsmall
    rw [List.map_singleton, List.singleton_inj] at h
    rw [character, hu, <- h, UInt16.toNat_ofNat_of_lt' hsmall]
    exact Char.ofNat_toNat c
  · cases h

theorem pairCode_eq {u v : UInt16} {n : Nat} (hn : 0x10000 ≤ n)
    (hhigh : u.toNat = 0xD800 + (n - 0x10000) / 0x400)
    (hlow : v.toNat = 0xDC00 + (n - 0x10000) % 0x400) : pairCode u v = n := by
  have h1 : u.toNat - 0xD800 = (n - 0x10000) / 0x400 :=
    hhigh ▸ Nat.add_sub_cancel_left _ _
  have h2 : v.toNat - 0xDC00 = (n - 0x10000) % 0x400 :=
    hlow ▸ Nat.add_sub_cancel_left _ _
  unfold pairCode
  omega

theorem pairCode_of_units {c : Char} {u v : UInt16} (h : units c = [u, v]) :
    Char.ofNat (pairCode u v) = c := by
  have hvalid : c.toNat.isValidChar := c.valid
  unfold Nat.isValidChar at hvalid
  rw [units, Text.utf16] at h
  split at h
  · cases h
  · rename_i hlarge
    rw [List.map_cons, List.map_singleton, List.cons.injEq, List.singleton_inj] at h
    have hhigh : u.toNat = 0xD800 + (c.toNat - 0x10000) / 0x400 := by
      have hle : 0xD800 + (c.toNat - 0x10000) / 0x400 ≤ 0xDBFF := by omega
      rw [<- h.left]
      exact UInt16.toNat_ofNat_of_lt' (Nat.lt_of_le_of_lt hle (by decide))
    have hlow : v.toNat = 0xDC00 + (c.toNat - 0x10000) % 0x400 := by
      have hle : 0xDC00 + (c.toNat - 0x10000) % 0x400 ≤ 0xDFFF := by omega
      rw [<- h.right]
      exact UInt16.toNat_ofNat_of_lt' (Nat.lt_of_le_of_lt hle (by decide))
    rw [pairCode_eq (Nat.le_of_not_lt hlarge) hhigh hlow]
    exact Char.ofNat_toNat c

theorem encodeToByteArray_decodeToString (t : Text) :
    encodeToByteArray (decodeToString t) = t := by
  induction t with
  | nil => rfl
  | cons c t ih =>
      rw [decodeToString] at ih
      rw [decodeToString, List.flatMap_cons]
      rcases units_cases c with ⟨u, hu, hsurrogate⟩ | ⟨u, v, huv, hhigh, hlow⟩
      · rw [hu, List.singleton_append]
        have hcharacter := character_of_units hu hsurrogate
        have hnotHigh := (Bool.or_eq_false_iff.mp hsurrogate).left
        cases hrest : t.flatMap units with
        | nil =>
            rw [hrest] at ih
            rw [encodeToByteArray, hcharacter, <- ih]
            rfl
        | cons w rest =>
            rw [hrest] at ih
            simp only [encodeToByteArray, hnotHigh, Bool.false_and, Bool.false_eq_true,
              if_false, hcharacter, ih]
      · rw [huv, List.cons_append, List.cons_append, List.nil_append]
        simp only [encodeToByteArray, hhigh, hlow, Bool.and_self, if_true, ih,
          pairCode_of_units huv]

end HostString
end DomainAI

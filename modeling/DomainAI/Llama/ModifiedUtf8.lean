import DomainAI.Data.HostString
import DomainAI.Library.Decoder

/-!
# Strings across the native interface

The native side gets a string as modified UTF-8: every UTF-16 unit on its own, and NUL in two
bytes, so that no byte of it is zero.
-/

namespace DomainAI
namespace ModifiedUtf8

open Library

def unitBytes (u : UInt16) : List UInt8 :=
  let n := u.toNat
  if 0 < n ∧ n < 0x80 then [UInt8.ofNat n]
  else if n < 0x800 then [UInt8.ofNat (0xC0 + n / 0x40), UInt8.ofNat (0x80 + n % 0x40)]
  else
    [UInt8.ofNat (0xE0 + n / 0x1000), UInt8.ofNat (0x80 + n / 0x40 % 0x40),
      UInt8.ofNat (0x80 + n % 0x40)]

def getStringUTFChars (t : Text) : List UInt8 :=
  (HostString.decodeToString t).flatMap unitBytes

def nextUnit : List UInt8 -> Option (UInt16 × List UInt8)
  | [] => none
  | a :: rest =>
      if a.toNat < 0x80 then some (UInt16.ofNat a.toNat, rest)
      else if a.toNat < 0xE0 then
        match rest with
        | b :: rest =>
            some (UInt16.ofNat (a.toNat % 0x20 * 0x40 + b.toNat % 0x40), rest)
        | [] => none
      else
        match rest with
        | b :: c :: rest =>
            some (UInt16.ofNat
              (a.toNat % 0x10 * 0x1000 + b.toNat % 0x40 * 0x40 + c.toNat % 0x40), rest)
        | _ => none

theorem nextUnit_shorter {xs rest : List UInt8} {u : UInt16}
    (h : nextUnit xs = some (u, rest)) : rest.length < xs.length := by
  revert h
  fun_cases nextUnit xs <;> intro h <;> cases h <;> simp only [List.length_cons] <;> omega

def decoder : Decoder UInt16 UInt8 where
  next := nextUnit
  shorter := nextUnit_shorter

def newStringUTF (bytes : List UInt8) : Text :=
  HostString.encodeToByteArray (decoder.decode bytes).1

theorem toNat_ofNat {n : Nat} (h : n < 0x100) : (UInt8.ofNat n).toNat = n :=
  UInt8.toNat_ofNat_of_lt' h

theorem nextUnit_unitBytes (u : UInt16) : decoder.Reads unitBytes u := by
  intro rest
  have hu : u.toNat < 0x10000 := u.toNat_lt
  show nextUnit (unitBytes u ++ rest) = some (u, rest)
  rw [unitBytes]
  split
  · rename_i hsmall
    have hbyte := @toNat_ofNat u.toNat (by omega)
    simp only [List.singleton_append, nextUnit, hbyte, if_pos hsmall.right,
      UInt16.ofNat_toNat]
  · split
    · have hfirst := @toNat_ofNat (0xC0 + u.toNat / 0x40) (by omega)
      have hsecond := @toNat_ofNat (0x80 + u.toNat % 0x40) (by omega)
      have hnotSingle : ¬ 0xC0 + u.toNat / 0x40 < 0x80 := by omega
      have hdouble : 0xC0 + u.toNat / 0x40 < 0xE0 := by omega
      have hunit : (0xC0 + u.toNat / 0x40) % 0x20 * 0x40 + (0x80 + u.toNat % 0x40) % 0x40 =
          u.toNat := by
        omega
      simp only [List.cons_append, List.nil_append, nextUnit, hfirst, hsecond,
        if_neg hnotSingle, if_pos hdouble, hunit, UInt16.ofNat_toNat]
    · have hfirst := @toNat_ofNat (0xE0 + u.toNat / 0x1000) (by omega)
      have hsecond := @toNat_ofNat (0x80 + u.toNat / 0x40 % 0x40) (by omega)
      have hthird := @toNat_ofNat (0x80 + u.toNat % 0x40) (by omega)
      have hnotSingle : ¬ 0xE0 + u.toNat / 0x1000 < 0x80 := by omega
      have hnotDouble : ¬ 0xE0 + u.toNat / 0x1000 < 0xE0 := by omega
      have hunit : (0xE0 + u.toNat / 0x1000) % 0x10 * 0x1000 +
          (0x80 + u.toNat / 0x40 % 0x40) % 0x40 * 0x40 + (0x80 + u.toNat % 0x40) % 0x40 =
          u.toNat := by
        omega
      simp only [List.cons_append, List.nil_append, nextUnit, hfirst, hsecond, hthird,
        if_neg hnotSingle, if_neg hnotDouble, hunit, UInt16.ofNat_toNat]

/-- A text comes back as it went. -/
theorem newStringUTF_getStringUTFChars (t : Text) :
    newStringUTF (getStringUTFChars t) = t := by
  have hdecode : decoder.decode ((HostString.decodeToString t).flatMap unitBytes ++ []) =
      (HostString.decodeToString t, []) :=
    Decoder.decode_words (fun u _ => nextUnit_unitBytes u) rfl
  rw [List.append_nil] at hdecode
  rw [newStringUTF, getStringUTFChars, hdecode]
  exact HostString.encodeToByteArray_decodeToString t

theorem nul_notMem_unitBytes (u : UInt16) : 0 ∉ unitBytes u := by
  have hu : u.toNat < 0x10000 := u.toNat_lt
  have hne {n : Nat} (h : 0 < n) (h' : n < 0x100) : (0 : UInt8) ≠ UInt8.ofNat n := by
    intro hzero
    have hnat := congrArg UInt8.toNat hzero
    rw [toNat_ofNat h'] at hnat
    exact absurd hnat (Nat.ne_of_lt h)
  rw [unitBytes]
  split
  · simp only [List.mem_singleton]
    exact hne (by omega) (by omega)
  · split
    · simp only [List.mem_cons, List.not_mem_nil, or_false, not_or]
      exact ⟨hne (by omega) (by omega), hne (by omega) (by omega)⟩
    · simp only [List.mem_cons, List.not_mem_nil, or_false, not_or]
      exact ⟨hne (by omega) (by omega), hne (by omega) (by omega),
        hne (by omega) (by omega)⟩

theorem nul_notMem (t : Text) : 0 ∉ getStringUTFChars t := by
  intro hmem
  rcases List.mem_flatMap.mp hmem with ⟨u, _, hu⟩
  exact nul_notMem_unitBytes u hu

theorem getStringUTFChars_append (s t : Text) :
    getStringUTFChars (s ++ t) = getStringUTFChars s ++ getStringUTFChars t := by
  rw [getStringUTFChars, HostString.decodeToString, List.flatMap_append,
    List.flatMap_append]
  rfl

end ModifiedUtf8
end DomainAI

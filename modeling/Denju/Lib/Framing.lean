import Denju.Lib.Text
import Mathlib.Algebra.GroupWithZero.Nat
import Mathlib.Data.List.Basic

/-!
# Byte framing

Big-endian 32-bit numbers and length-prefixed payloads.  A rendering is prefix
free when its output can be split off the front of any longer byte string;
concatenating prefix-free renderings loses nothing.
-/

namespace Lib

/-- The four big-endian bytes of a number below `2 ^ 32`. -/
def u32BigEndian (n : Nat) : Bytes :=
  [UInt8.ofNat (n / 2 ^ 24), UInt8.ofNat (n / 2 ^ 16), UInt8.ofNat (n / 2 ^ 8),
    UInt8.ofNat n]

@[simp] theorem length_u32BigEndian (n : Nat) :
    (u32BigEndian n).length = 4 := rfl

theorem u32BigEndian_injective {m n : Nat} (hm : m < 2 ^ 32) (hn : n < 2 ^ 32)
    (h : u32BigEndian m = u32BigEndian n) : m = n := by
  simp only [u32BigEndian, List.cons.injEq, and_true, ← UInt8.toNat_inj,
    UInt8.toNat_ofNat'] at h
  omega

/-!
## Prefix-free renderings
-/

variable {α : Type}

/-- The rendering of a value can be split off the front of a byte string. -/
def PrefixFreeOn (domain : α -> Prop) (render : α -> Bytes) : Prop :=
  forall a b s t, domain a -> domain b ->
    render a ++ s = render b ++ t -> a = b ∧ s = t

theorem PrefixFreeOn.injective {domain : α -> Prop} {render : α -> Bytes}
    (hfree : PrefixFreeOn domain render) {a b : α}
    (ha : domain a) (hb : domain b) (h : render a = render b) : a = b :=
  (hfree a b [] [] ha hb (by simpa using h)).1

theorem prefixFreeOn_u32BigEndian :
    PrefixFreeOn (fun n => n < 2 ^ 32) u32BigEndian := by
  intro m n s t hm hn h
  rcases List.append_inj h (by simp) with ⟨hhead, htail⟩
  exact ⟨u32BigEndian_injective hm hn hhead, htail⟩

/-- A payload behind its length. -/
def lengthPrefixed (payload : Bytes) : Bytes :=
  u32BigEndian payload.length ++ payload

theorem prefixFreeOn_lengthPrefixed :
    PrefixFreeOn (fun payload => payload.length < 2 ^ 32) lengthPrefixed := by
  intro a b s t ha hb h
  simp only [lengthPrefixed, List.append_assoc] at h
  rcases prefixFreeOn_u32BigEndian _ _ _ _ ha hb h with ⟨hlength, hrest⟩
  exact List.append_inj hrest hlength

/-- Sequences of equal length render without ambiguity. -/
theorem PrefixFreeOn.flatMap_injective
    {domain : α -> Prop} {render : α -> Bytes}
    (hfree : PrefixFreeOn domain render) {xs ys : List α}
    (hxs : forall x, x ∈ xs -> domain x)
    (hys : forall y, y ∈ ys -> domain y)
    (hlength : xs.length = ys.length)
    (h : xs.flatMap render = ys.flatMap render) : xs = ys := by
  induction xs generalizing ys with
  | nil => exact (List.length_eq_zero_iff.mp hlength.symm).symm
  | cons x rest ih =>
      cases ys with
      | nil => simp at hlength
      | cons y more =>
          simp only [List.flatMap_cons] at h
          rcases hfree x y _ _ (hxs x List.mem_cons_self)
            (hys y List.mem_cons_self) h with ⟨hhead, htail⟩
          have hrest : rest = more := by
            apply ih
            · intro z hz
              exact hxs z (List.mem_cons_of_mem x hz)
            · intro z hz
              exact hys z (List.mem_cons_of_mem y hz)
            · simpa using hlength
            · exact htail
          rw [hhead, hrest]

/-- A map that separates the members of two lists separates the lists. -/
theorem eq_of_map_eq_map {β : Type} {f : α -> β} {xs ys : List α}
    (hinj : forall x, x ∈ xs -> forall y, y ∈ ys -> f x = f y -> x = y)
    (h : xs.map f = ys.map f) : xs = ys := by
  induction xs generalizing ys with
  | nil => exact (List.map_eq_nil_iff.mp h.symm).symm
  | cons x rest ih =>
      cases ys with
      | nil => simp at h
      | cons y more =>
          simp only [List.map_cons, List.cons.injEq] at h
          have hhead :=
            hinj x List.mem_cons_self y List.mem_cons_self h.1
          have hrest : rest = more := by
            apply ih
            · intro z hz w hw hzw
              exact hinj z (List.mem_cons_of_mem x hz) w
                (List.mem_cons_of_mem y hw) hzw
            · exact h.2
          rw [hhead, hrest]

end Lib

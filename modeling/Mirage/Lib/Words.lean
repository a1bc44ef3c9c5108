import Mathlib.Data.List.Induction
import Mathlib.Data.Vector.Defs
import Mathlib.Tactic.Ring

/-!
# Machine words

Big-endian bytes of a number and back, the saturating operations of 32-bit words read through
`toNat`, the xor of byte strings, and which of them are UTF-8.
-/

namespace Words

open Nat
open List hiding Vector

abbrev Bytes := List UInt8

abbrev Bytes32 := Vector UInt8 32

abbrev Bytes64 := Vector UInt8 64

/-- The `n` low bytes of `x`, most significant first. -/
def beBytes : ℕ → ℕ → List UInt8
  | 0, _ => []
  | n + 1, x => beBytes n (x / 256) ++ [UInt8.ofNat (x % 256)]

/-- The number a byte string writes, most significant byte first. -/
def beNat (bs : List UInt8) : ℕ := bs.foldl (fun a b => a * 256 + b.toNat) 0

/-- The first `n` bytes of a string that has as many, as an array. -/
def vec (n : ℕ) (bs : List UInt8) : Vector UInt8 n := Vector.ofFn fun i : Fin n => bs.getD i 0

@[simp]
lemma length_beBytes : ∀ n x, (beBytes n x).length = n
  | 0, _ => rfl
  | n + 1, x => by simp [beBytes, length_beBytes]

lemma beNat_concat (bs : List UInt8) (b : UInt8) :
    beNat (bs ++ [b]) = beNat bs * 256 + b.toNat := by
  simp [beNat]

lemma beNat_beBytes : ∀ {n x : ℕ}, x < 256 ^ n → beNat (beBytes n x) = x
  | 0, x, h => by simp at h; subst h; rfl
  | n + 1, x, h => by
    have hx : x / 256 < 256 ^ n := Nat.div_lt_of_lt_mul (by rw [pow_succ] at h; omega)
    rw [beBytes, beNat_concat, beNat_beBytes hx, UInt8.toNat_ofNat_of_lt' (by
      have := mod_lt x (show 256 > 0 by omega); exact this)]
    omega

variable {n i : ℕ} {bs rest : List UInt8}

lemma beBytes_inj {x y : ℕ} (hx : x < 256 ^ n) (hy : y < 256 ^ n)
    (h : beBytes n x = beBytes n y) : x = y := by
  rw [← beNat_beBytes hx, ← beNat_beBytes hy, h]

lemma beNat_lt (bs : List UInt8) : beNat bs < 256 ^ bs.length := by
  induction bs using reverseRecOn with
  | nil => simp [beNat]
  | append_singleton bs b ih =>
    rw [beNat_concat, length_append, length_singleton, pow_succ]
    have hb := b.toNat_lt
    omega

lemma beBytes_beNat (bs : List UInt8) : beBytes bs.length (beNat bs) = bs := by
  induction bs using reverseRecOn with
  | nil => rfl
  | append_singleton bs b ih =>
    have hb : b.toNat < 256 := b.toNat_lt
    rw [beNat_concat, length_append, length_singleton, beBytes]
    rw [show (beNat bs * 256 + b.toNat) / 256 = beNat bs by omega,
      show (beNat bs * 256 + b.toNat) % 256 = b.toNat by omega, ih]
    simp

lemma toList_vec (h : n ≤ bs.length) : (vec n bs).toList = bs.take n := by
  refine ext_getElem (by simp [h]) fun i hi _ => ?_
  have hn : i < n := by simpa using hi
  simp [vec, lt_of_lt_of_le hn h]

@[simp]
lemma vec_toList (v : Vector UInt8 n) : vec n v.toList = v := by
  rw [← Vector.toList_inj, toList_vec (by simp), take_of_length_le (by simp)]

lemma vec_take {m : ℕ} (h : n ≤ m) : vec n (bs.take m) = vec n bs := by
  ext i hi
  have him : i < m := lt_of_lt_of_le hi h
  simp [vec, getElem?_take, him]

/-! Reading the fields of a buffer one after another. -/

lemma drop_eq_cons {b : UInt8} :
    bs.drop i = b :: rest ↔ i < bs.length ∧ bs.getD i 0 = b ∧ bs.drop (i + 1) = rest := by
  rcases lt_or_ge i bs.length with h | h
  · rw [drop_eq_getElem_cons h, getD_eq_getElem?_getD, getElem?_eq_getElem h,
      Option.getD_some, cons.injEq]
    exact ⟨fun hc => ⟨h, hc⟩, And.right⟩
  · simp [drop_eq_nil_of_le h, not_lt.2 h]

lemma drop_eq_append {as : List UInt8} (h : as.length = n) :
    bs.drop i = as ++ rest ↔ (bs.drop i).take n = as ∧ bs.drop (i + n) = rest := by
  rw [← drop_drop]
  constructor
  · intro hd
    rw [hd]
    exact ⟨take_left' h, drop_left' h⟩
  · rintro ⟨ht, hd⟩
    rw [← ht, ← hd, take_append_drop]

lemma drop_eq_vec_append {v : Vector UInt8 n} : bs.drop i = v.toList ++ rest ↔
      n ≤ (bs.drop i).length ∧ vec n (bs.drop i) = v ∧ bs.drop (i + n) = rest := by
  rw [drop_eq_append (n := n) (by simp), ← and_assoc]
  refine and_congr_left fun _ => ⟨fun h => ?_, fun ⟨hl, hv⟩ => ?_⟩
  · have hl : n ≤ (bs.drop i).length := by
      have := congrArg length h
      simp only [length_take, Vector.length_toList] at this
      omega
    refine ⟨hl, Vector.toList_inj.1 ?_⟩
    rw [toList_vec hl, h]
  · rw [← hv, toList_vec hl]

lemma beBytes_eq {x : UInt64} (h : bs.length = 8) :
    bs = beBytes 8 x.toNat ↔ UInt64.ofNat (beNat bs) = x := by
  have hlt : beNat bs < 2 ^ 64 := by
    have := beNat_lt bs
    rw [h] at this
    omega
  constructor
  · rintro rfl
    rw [beNat_beBytes x.toNat_lt, UInt64.ofNat_toNat]
  · rintro rfl
    rw [UInt64.toNat_ofNat_of_lt' hlt, ← h, beBytes_beNat]

lemma drop_eq_u64_append {x : UInt64} : bs.drop i = beBytes 8 x.toNat ++ rest ↔
      8 ≤ (bs.drop i).length ∧ UInt64.ofNat (beNat ((bs.drop i).take 8)) = x ∧
        bs.drop (i + 8) = rest := by
  rw [drop_eq_append (length_beBytes 8 _), ← and_assoc]
  refine and_congr_left fun _ => ⟨fun h => ?_, fun ⟨hl, hx⟩ => ?_⟩
  · have hl : ((bs.drop i).take 8).length = 8 := by rw [h, length_beBytes]
    rw [length_take] at hl
    exact ⟨by omega, (beBytes_eq (by rw [length_take]; omega)).1 h⟩
  · exact (beBytes_eq (by rw [length_take]; omega)).2 hx

def satAdd64 (a b : UInt64) : UInt64 := UInt64.ofNat (min (a.toNat + b.toNat) (2 ^ 64 - 1))

def satAdd (a b : UInt32) : UInt32 := UInt32.ofNat (min (a.toNat + b.toNat) (2 ^ 32 - 1))

def satSub (a b : UInt32) : UInt32 := UInt32.ofNat (a.toNat - b.toNat)

@[simp]
lemma toNat_satAdd (a b : UInt32) : (satAdd a b).toNat = min (a.toNat + b.toNat) (2 ^ 32 - 1) := by
  unfold satAdd
  rw [UInt32.toNat_ofNat_of_lt']
  exact lt_of_le_of_lt (min_le_right _ _) (by decide)

@[simp]
lemma toNat_satSub (a b : UInt32) : (satSub a b).toNat = a.toNat - b.toNat := by
  unfold satSub
  rw [UInt32.toNat_ofNat_of_lt']
  have := a.toNat_lt
  exact lt_of_le_of_lt (sub_le _ _) this

lemma zipWith_xor_inj : ∀ {iv as bs : List UInt8}, as.length ≤ iv.length →
    as.length = bs.length → zipWith (· ^^^ ·) iv as = zipWith (· ^^^ ·) iv bs → as = bs
  | _, [], [], _, _, _ => rfl
  | [], _ :: _, _ :: _, h, _, _ => by simp at h
  | v :: iv, a :: as, b :: bs, h, hl, he => by
    simp only [zipWith_cons_cons, cons.injEq, UInt8.xor_right_inj] at he
    simp only [length_cons, add_le_add_iff_right, add_right_cancel_iff] at h hl
    rw [he.1, zipWith_xor_inj h hl he.2]

/-- The ranges of the bytes that go with a leading byte of UTF-8. -/
def utf8Tail (b : UInt8) : Option (List (UInt8 × UInt8)) :=
  let tail : UInt8 × UInt8 := (0x80, 0xbf)
  if b < 0x80 then some []
  else if b < 0xc2 then none
  else if b ≤ 0xdf then some [tail]
  else if b = 0xe0 then some [(0xa0, 0xbf), tail]
  else if b = 0xed then some [(0x80, 0x9f), tail]
  else if b ≤ 0xef then some [tail, tail]
  else if b = 0xf0 then some [(0x90, 0xbf), tail, tail]
  else if b ≤ 0xf3 then some [tail, tail, tail]
  else if b = 0xf4 then some [(0x80, 0x8f), tail, tail]
  else none

/-- The bytes are UTF-8 after a character that still wants bytes of the given ranges. -/
def isUtf8After : List (UInt8 × UInt8) → Bytes → Bool
  | wants, [] => wants.isEmpty
  | [], b :: bs => (utf8Tail b).any fun wants => isUtf8After wants bs
  | want :: wants, b :: bs => want.1 ≤ b && b ≤ want.2 && isUtf8After wants bs

def isUtf8 (bs : Bytes) : Bool := isUtf8After [] bs

end Words

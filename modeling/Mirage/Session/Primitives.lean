import Mirage.Session.Frames

/-!
# What is assumed of the primitives

`Sized` is the documented shape of the two AEADs. `Ideal` is what the session relies on: what was
sealed opens under the same key, nonce and AAD and under no other AAD, and the transport reads back
what it wrote. `tagged` is a suite with all of these that can be evaluated.
-/

namespace Mirage

open Words
open List hiding Vector

namespace Suite

structure Sized (S : Suite) : Prop where
  encrypt_some : ∀ key nonce aad msg, msg.length ≤ maxFramePlaintext + aeadTagLen →
    ∃ ct, S.encrypt key nonce aad msg = some ct ∧ ct.length = msg.length + aeadTagLen
  noise_length : ∀ r n msg, (S.noiseEncrypt r n msg).length = msg.length + aeadTagLen

structure Ideal (S : Suite) : Prop extends Sized S where
  decrypt_encrypt : ∀ {key nonce aad msg ct}, S.encrypt key nonce aad msg = some ct →
    S.decrypt key nonce aad ct = some msg
  decrypt_ne : ∀ {key key' nonce nonce' binding d e q d' e' q' msg ct},
    aadBytes binding d e q ≠ aadBytes binding d' e' q' →
    S.encrypt key nonce (aadBytes binding d e q) msg = some ct →
    S.decrypt key' nonce' (aadBytes binding d' e' q') ct = none
  noise_decrypt : ∀ r n msg, S.noiseDecrypt r n (S.noiseEncrypt r n msg) = some msg

def counterTag (aad : Bytes) : Bytes := (aad.drop 32 ++ replicate 16 0).take 16

def tagged : Suite where
  blake3 _ := Vector.replicate 32 0
  hkdfExpand _ _ := Vector.replicate 44 0
  encrypt _ _ aad msg := some (msg ++ counterTag aad)
  decrypt _ _ aad ct :=
    if 16 ≤ ct.length ∧ ct.drop (ct.length - 16) = counterTag aad then
      some (ct.take (ct.length - 16))
    else none
  noiseEncrypt _ _ msg := msg ++ replicate 16 0
  noiseDecrypt _ _ ct := if 16 ≤ ct.length then some (ct.take (ct.length - 16)) else none

@[simp]
lemma length_counterTag (aad : Bytes) : (counterTag aad).length = 16 := by
  simp [counterTag]

lemma counterTag_inj {binding : Bytes32} {d d' : Direction} {e q e' q' : ℕ}
    (h : counterTag (aadBytes binding d e q) = counterTag (aadBytes binding d' e' q')) :
    aadBytes binding d e q = aadBytes binding d' e' q' := by
  simp only [counterTag, aadBytes] at h
  rw [drop_left' (by simp), drop_left' (by simp)] at h
  rw [take_append, take_append] at h
  have hl := (append_inj h (by simp)).1
  rw [take_of_length_le (by simp), take_of_length_le (by simp)] at hl
  rw [aadBytes, aadBytes, hl]

lemma tagged_ideal : tagged.Ideal where
  encrypt_some key nonce aad msg _ := ⟨msg ++ counterTag aad, rfl, by simp [aeadTagLen]⟩
  noise_length r n msg := by simp [tagged, aeadTagLen]
  decrypt_encrypt {key nonce aad msg ct} h := by
    obtain rfl : msg ++ counterTag aad = ct := Option.some.inj h
    simp [tagged]
  decrypt_ne {key key' nonce nonce' binding d e q d' e' q' msg ct} hne h := by
    obtain rfl : msg ++ counterTag (aadBytes binding d e q) = ct := Option.some.inj h
    simp only [tagged, length_append, length_counterTag, Nat.add_sub_cancel,
      drop_left, ite_eq_right_iff, reduceCtorEq, imp_false, not_and]
    exact fun _ heq => hne (counterTag_inj heq)
  noise_decrypt r n msg := by simp [tagged]

end Suite

end Mirage

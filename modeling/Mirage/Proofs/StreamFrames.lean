import Mirage.Session.StreamFrames

/-!
# What is read from a stream of frames

`recv` undoes `send`. A stream that ends after the first byte of a length is taken for a whole one.
-/

namespace Mirage.UdpFramer

open Words List

variable {s s' : List Bytes} {ds : List Bytes} {d out rest : Bytes}

lemma readExact_cases : ∀ n s,
    s.flatten.length < n ∧ readExact n s = none ∨
      n ≤ s.flatten.length ∧ ∃ s', readExact n s = some (s.flatten.take n, s') ∧
        s'.flatten = s.flatten.drop n
  | 0, s => .inr ⟨zero_le, s, by simp [readExact]⟩
  | n + 1, [] => .inl ⟨Nat.succ_pos n, rfl⟩
  | n + 1, chunk :: s => by
    rw [readExact, flatten_cons, length_append, take_append, drop_append]
    split_ifs with hc
    · rw [take_of_length_le hc.le, drop_of_length_le hc.le]
      rcases readExact_cases (n + 1 - chunk.length) s with ⟨hlt, h⟩ | ⟨hle, s', h, hs'⟩
      · exact .inl ⟨by omega, by rw [h]; rfl⟩
      · exact .inr ⟨by omega, s', by rw [h]; rfl, hs'⟩
    · have hz : n + 1 - chunk.length = 0 := by omega
      exact .inr ⟨by omega, chunk.drop (n + 1) :: s, by simp [hz]⟩

lemma readExact_append {x : Bytes} {n : ℕ} (hx : x.length = n) (hs : s.flatten = x ++ rest) :
    ∃ s', readExact n s = some (x, s') ∧ s'.flatten = rest := by
  subst hx
  rcases readExact_cases x.length s with ⟨hlt, -⟩ | ⟨-, s', h, hs'⟩
  · simp [hs] at hlt
  · rw [hs, drop_left] at hs'
    rw [hs, take_left] at h
    exact ⟨s', h, hs'⟩

lemma readExact_eq_some {x : Bytes} {n : ℕ} (h : readExact n s = some (x, s')) :
    x.length = n ∧ s.flatten = x ++ s'.flatten := by
  rcases readExact_cases n s with ⟨-, hn⟩ | ⟨hle, s₁, hs, hd⟩
  · rw [hn] at h
    cases h
  · rw [hs] at h
    cases h
    exact ⟨length_take_of_le hle, by rw [hd, take_append_drop]⟩

lemma send_eq_ok :
    send d = .ok out ↔ d.length ≤ maxUdpDatagramBytes ∧ out = beBytes 2 d.length ++ d := by
  unfold send
  split_ifs with h
  · simp [h]
  · simp [not_lt.1 h, eq_comm]

lemma recv_eq_none : (recv s).1 = .ok none ↔ s.flatten.length < 2 := by
  unfold recv udpLengthPrefixLen
  rcases readExact_cases 2 s with ⟨hlt, h⟩ | ⟨hle, s₁, h, -⟩
  · simp only [h, hlt]
  simp only [h]
  refine iff_of_false ?_ (not_lt.2 hle)
  split_ifs
  · nofun
  · nofun
  · split <;> nofun

lemma recv_send (h : send d = .ok out) (hs : s.flatten = out ++ rest) :
    ∃ s', recv s = (.ok (some d), s') ∧ s'.flatten = rest := by
  obtain ⟨hle, rfl⟩ := send_eq_ok.1 h
  have hm : maxUdpDatagramBytes = 16382 := rfl
  have hl : beNat (beBytes 2 d.length) = d.length := beNat_beBytes (by omega)
  rw [append_assoc] at hs
  obtain ⟨s₁, h₁, hs₁⟩ := readExact_append (length_beBytes 2 _) hs
  unfold recv udpLengthPrefixLen
  simp only [h₁, hl, if_neg (not_lt.2 hle)]
  split_ifs with hz
  · obtain rfl := length_eq_zero_iff.1 hz
    exact ⟨s₁, rfl, hs₁⟩
  obtain ⟨s₂, h₂, hs₂⟩ := readExact_append rfl hs₁
  exact ⟨s₂, by rw [h₂], hs₂⟩

lemma recv_eq_some (h : recv s = (.ok (some d), s')) :
    ∃ out, send d = .ok out ∧ s.flatten = out ++ s'.flatten := by
  unfold recv udpLengthPrefixLen at h
  split at h
  · cases h
  rename_i lb s₁ h₁
  obtain ⟨hl, hs⟩ := readExact_eq_some h₁
  have hb := beBytes_beNat lb
  rw [hl] at hb
  dsimp only at h
  split_ifs at h with hc hz
  · cases h
  · cases h
    exact ⟨_, send_eq_ok.2 ⟨zero_le, rfl⟩, by rw [length_nil, ← hz, hb, append_nil, hs]⟩
  split at h
  · cases h
  rename_i buf s₂ h₂
  cases h
  obtain ⟨hl₂, hs₂⟩ := readExact_eq_some h₂
  refine ⟨_, send_eq_ok.2 ⟨hl₂.trans_le (not_lt.1 hc), rfl⟩, ?_⟩
  rw [hl₂, hb, hs, hs₂, append_assoc]

def recvAll (s : List Bytes) : List Bytes × Except SessionError Unit :=
  match _h : recv s with
  | (.ok none, _) => ([], .ok ())
  | (.error e, _) => ([], .error e)
  | (.ok (some d), s') => (d :: (recvAll s').1, (recvAll s').2)
termination_by s.flatten.length
decreasing_by
  all_goals
    obtain ⟨out, hsend, hs⟩ := recv_eq_some _h
    rw [hs, length_append, (send_eq_ok.1 hsend).2, length_append, length_beBytes]
    omega

def sendAll : List Bytes → Except SessionError Bytes
  | [] => .ok []
  | d :: ds => do
    let out ← send d
    let rest ← sendAll ds
    pure (out ++ rest)

lemma sendAll_cons : sendAll (d :: ds) = .ok out ↔
    ∃ o rest, send d = .ok o ∧ sendAll ds = .ok rest ∧ out = o ++ rest := by
  rw [sendAll]
  cases send d <;> cases sendAll ds <;> simp [bind, Except.bind, pure, Except.pure, eq_comm]

lemma recvAll_eq_ok : recvAll s = (ds, .ok ()) ↔
    ∃ out tail, sendAll ds = .ok out ∧ s.flatten = out ++ tail ∧ tail.length < 2 := by
  induction ds generalizing s with
  | nil =>
    have hn : recvAll s = ([], .ok ()) ↔ (recv s).1 = .ok none := by
      rw [recvAll]
      split <;> simp_all
    rw [hn, recv_eq_none]
    simp [sendAll]
  | cons d ds ih =>
    have hc : recvAll s = (d :: ds, .ok ()) ↔
        ∃ s', recv s = (.ok (some d), s') ∧ recvAll s' = (ds, .ok ()) := by
      rw [recvAll]
      split <;> rename_i h <;> simp [h, Prod.ext_iff, and_assoc]
    simp only [hc, ih, sendAll_cons]
    constructor
    · rintro ⟨s', h, out, tail, hds, hs', ht⟩
      obtain ⟨o, ho, hs⟩ := recv_eq_some h
      exact ⟨_, tail, ⟨o, out, ho, hds, rfl⟩, by rw [hs, hs', append_assoc], ht⟩
    · rintro ⟨-, tail, ⟨o, out, ho, hds, rfl⟩, hs, ht⟩
      rw [append_assoc] at hs
      obtain ⟨s', h, hs'⟩ := recv_send ho hs
      exact ⟨s', h, out, tail, hds, hs', ht⟩

/-- What was sent is received exactly if the stream does not end after one byte of a length. -/
theorem datagrams_whole_iff (s : List Bytes) :
    (∀ ds, recvAll s = (ds, .ok ()) ↔ sendAll ds = .ok s.flatten) ↔
      ∀ ds out b, sendAll ds = .ok out → s.flatten ≠ out ++ [b] := by
  constructor
  · intro h ds out b hsn hs
    have ha := (h ds).1 (recvAll_eq_ok.2 ⟨out, [b], hsn, hs, by simp⟩)
    rw [hsn, hs] at ha
    simp at ha
  · refine fun h ds => ⟨fun hr => ?_, fun hsn => ?_⟩
    · obtain ⟨out, tail, hsn, hs, ht⟩ := recvAll_eq_ok.1 hr
      rcases tail with _ | ⟨b, _ | _⟩
      · rw [hsn, hs, append_nil]
      · exact absurd hs (h ds out b hsn)
      · simp only [length_cons] at ht
        omega
    · exact recvAll_eq_ok.2 ⟨_, [], hsn, by simp, by simp⟩

/-- The stream ends after one byte of a length, and this is taken for its end. -/
theorem torn_length_taken_for_end : (recv [[0]]).1 = .ok none ∧ sendAll [] ≠ .ok [0] :=
  ⟨rfl, nofun⟩

end Mirage.UdpFramer

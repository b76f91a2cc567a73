import Voicers.Media.JitterTimeline

/-! What happens to a jitter buffer when nothing arrives any more. The cursor
plays the packets on its grid and jumps over large gaps; packets it has left
behind, or that lie between its slots, stay pending and count towards the
target depth for ever. -/

namespace Voicers

open Lib

def emitted : Option PlayoutDecision → Bool
  | none => false
  | some d => d ≠ .hold

/-- Every later decision returns, and a bound that depends on the state only
limits how many of them are something other than `hold`. -/
def Drains (π : Profile) (b : JitterBuffer) : Prop :=
  ∃ bound, ∀ clock : List Nat, clock.Pairwise (· ≤ ·) →
    ∃ tr c, execute (JitterBuffer.call π) b (clock.map JitterOp.nextPlayoutDecision) = some (tr, c) ∧
      tr.countP (fun x => emitted x.output) ≤ bound

/-- The slots a cursor at `c` reaches in steps of one frame. -/
def OnGrid (c k : Nat) : Prop := c ≤ k ∧ (k - c) % frameSamples = 0

instance (c k : Nat) : Decidable (OnGrid c k) := inferInstanceAs (Decidable (_ ∧ _))

/-- How many of the pending timestamps a cursor at `c` never reaches. While it
reaches the oldest, on its grid or by a gap rebase, it goes on from there;
an oldest packet it does not reach stays, and with it there is no further
rebase. -/
def strandedFrom : Nat → List Nat → Nat
  | _, [] => 0
  | c, e :: ks =>
    if c + frameSamples * driftRebaseThresholdFrames < e ∨ OnGrid c e then
      strandedFrom (e + frameSamples) ks
    else ((e :: ks).filter (fun k => ¬ OnGrid c k)).length

namespace JitterBuffer

def keys (b : JitterBuffer) : List Nat := b.pending.entries.map Prod.fst

/-- The pending packets that no later decision will play. Without a cursor,
playout starts at the oldest packet. -/
def stranded (b : JitterBuffer) : Nat :=
  match b.nextPlayoutTimestampSamples with
  | some c => strandedFrom c b.keys
  | none => strandedFrom (b.keys.headD 0) b.keys

/-- Ten frames of room below the end of the `u64` range. -/
def Room (b : JitterBuffer) : Prop :=
  (∀ c, b.nextPlayoutTimestampSamples = some c → c + 10 * frameSamples < u64Range) ∧
    ∀ k ∈ b.keys, k + 10 * frameSamples < u64Range

end JitterBuffer

theorem onGrid_advance {c k : Nat} (h : k ≠ c) : OnGrid (c + frameSamples) k ↔ OnGrid c k := by
  simp only [OnGrid, frameSamples]
  omega

theorem onGrid_self (c : Nat) : OnGrid c c := by simp [OnGrid]

theorem strandedFrom_le_length (c : Nat) (ks : List Nat) : strandedFrom c ks ≤ ks.length := by
  induction ks generalizing c with
  | nil => exact le_rfl
  | cons e ks ih =>
    rw [strandedFrom]
    split_ifs
    · exact (ih _).trans (Nat.le_succ _)
    · exact List.length_filter_le _ _

theorem strandedFrom_jump {c e : Nat} {ks : List Nat}
    (h : c + frameSamples * driftRebaseThresholdFrames < e) :
    strandedFrom c (e :: ks) = strandedFrom (e + frameSamples) ks := by
  rw [strandedFrom, if_pos (.inl h)]

theorem strandedFrom_skip {c e : Nat} {ks : List Nat}
    (hnear : e ≤ c + frameSamples * driftRebaseThresholdFrames) (hc : c ∉ e :: ks) :
    strandedFrom (c + frameSamples) (e :: ks) = strandedFrom c (e :: ks) := by
  have hne : e ≠ c := fun h => hc (by simp [h])
  have hjump : ¬ c + frameSamples * driftRebaseThresholdFrames < e := by omega
  have hjump' : ¬ c + frameSamples + frameSamples * driftRebaseThresholdFrames < e := by omega
  have hfilter : (e :: ks).filter (fun k => ¬ OnGrid (c + frameSamples) k) =
      (e :: ks).filter (fun k => ¬ OnGrid c k) := by
    apply List.filter_congr
    intro k hk
    have hkc : k ≠ c := fun h => hc (h ▸ hk)
    simp only [onGrid_advance hkc]
  rw [strandedFrom, strandedFrom, hfilter]
  simp only [hjump, hjump', onGrid_advance hne]

theorem filter_ne_head {e : Nat} {ks : List Nat} (hs : (e :: ks).Pairwise (· < ·)) :
    (e :: ks).filter (· ≠ e) = ks := by
  have hlt := (List.pairwise_cons.mp hs).1
  rw [List.filter_cons_of_neg (by simp)]
  exact List.filter_eq_self.mpr fun k hk => by simpa using (hlt k hk).ne'

theorem strandedFrom_play {c e : Nat} {ks : List Nat} (hs : (e :: ks).Pairwise (· < ·))
    (hc : c ∈ e :: ks) :
    strandedFrom (c + frameSamples) ((e :: ks).filter (· ≠ c)) = strandedFrom c (e :: ks) := by
  have hp := List.pairwise_cons.mp hs
  by_cases he : e = c
  · subst he
    rw [filter_ne_head hs]
    conv_rhs => rw [strandedFrom, if_pos (.inr (onGrid_self e))]
  · have hlt : e < c := hp.1 c ((List.mem_cons.mp hc).resolve_left (Ne.symm he))
    have hoff : ¬ OnGrid c e := fun h => absurd h.1 (by omega)
    have hoff' : ¬ OnGrid (c + frameSamples) e := fun h => hoff ((onGrid_advance he).mp h)
    have hjump : ¬ c + frameSamples * driftRebaseThresholdFrames < e := by omega
    have hjump' : ¬ c + frameSamples + frameSamples * driftRebaseThresholdFrames < e := by omega
    rw [List.filter_cons_of_pos (by simpa using he), strandedFrom, strandedFrom,
      if_neg (by simp [hjump', hoff']), if_neg (by simp [hjump, hoff]),
      ← List.filter_cons_of_pos (a := e) (l := ks) (p := (· ≠ c)) (by simpa using he),
      List.filter_filter]
    congr 1
    apply List.filter_congr
    intro k _
    by_cases hk : k = c
    · simp [hk, onGrid_self]
    · simp [hk, onGrid_advance hk]

namespace JitterBuffer

theorem keys_sorted (b : JitterBuffer) : b.keys.Pairwise (· < ·) :=
  List.pairwise_map.mpr b.pending.sorted

theorem mem_keys {b : JitterBuffer} {k : Nat} :
    k ∈ b.keys ↔ ∃ p, b.pending.get? k = some p := by
  simp [keys, SortedMap.get?_eq_some_iff]

theorem keys_length (b : JitterBuffer) : b.keys.length = b.pending.length := by
  simp [keys, SortedMap.length]

theorem keys_erase (m : SortedMap Nat EncodedPacket) (k : Nat) :
    (m.erase k).entries.map Prod.fst = (m.entries.map Prod.fst).filter (· ≠ k) := by
  rw [SortedMap.erase, List.filter_map]
  rfl

theorem keys_first {b : JitterBuffer} {e : Nat} {p : EncodedPacket}
    (h : b.pending.first? = some (e, p)) : ∃ ks, b.keys = e :: ks :=
  ⟨_, by rw [keys, SortedMap.entries_eq_cons h, List.map_cons]⟩

section

variable {b b' : JitterBuffer} {now n t : Nat} {d : PlayoutDecision}

theorem Near.first_le (h : Near .dev b n) {e : Nat} {ks : List Nat} (hk : b.keys = e :: ks) :
    e ≤ n + frameSamples * driftRebaseThresholdFrames := by
  cases hf : b.pending.first? with
  | none =>
    have hz := SortedMap.first?_eq_none_iff.mp hf
    have hl := b.keys_length
    rw [hk, List.length_cons] at hl
    omega
  | some f =>
    obtain ⟨f, p⟩ := f
    obtain ⟨ks', hk'⟩ := keys_first hf
    obtain ⟨limit, hl, hle⟩ := h (f, p) hf
    obtain ⟨rfl, _⟩ := Profile.dev_u64 hl
    rw [hk] at hk'
    obtain ⟨rfl, _⟩ := List.cons.inj hk'
    exact hle

theorem strandedFrom_concealed (hn : Near .dev b n) (hp : b.pending.get? n = none)
    (hpos : 0 < b.pending.length) :
    strandedFrom (n + frameSamples) b.keys = strandedFrom n b.keys := by
  have hc : n ∉ b.keys := fun h => by
    obtain ⟨p, hp'⟩ := mem_keys.mp h
    simp [hp] at hp'
  cases hk : b.keys with
  | nil =>
    have hl := b.keys_length
    rw [hk, List.length_nil] at hl
    omega
  | cons e ks => exact strandedFrom_skip (hn.first_le hk) (hk ▸ hc)

/-- What a decision of a buffer with a cursor does to the packets that are
out of reach: nothing. -/
theorem DueStep.strands (hw : b.WellFormed) (h : DueStep .dev b now n t d b') :
    (d = .hold ∧ (b' = b ∧ (now < t + playoutLateGrace) ∨
      b' = b.underrun ∧ b.pending.length < b.targetDepth)) ∨
    (∃ k p, d = .packet p ∧ k ∈ b.keys ∧ n ≤ k ∧
      b'.nextPlayoutTimestampSamples = some (k + frameSamples) ∧
      b'.nextPlayoutDeadline = some (t + frameDuration) ∧ b'.keys = b.keys.filter (· ≠ k) ∧
      strandedFrom (k + frameSamples) b'.keys = strandedFrom n b.keys) ∨
    (d ≠ .hold ∧ n ∉ b.keys ∧ b.targetDepth ≤ b.pending.length ∧
      b'.nextPlayoutTimestampSamples = some (n + frameSamples) ∧
      b'.nextPlayoutDeadline = some (t + frameDuration) ∧ b'.pending = b.pending ∧
      b'.targetDepth = min (b.targetDepth + 1) jitterMaxTargetDepth ∧
      strandedFrom (n + frameSamples) b.keys = strandedFrom n b.keys) := by
  have hmin := hw.minDepth
  simp only [jitterMinDepth] at hmin
  have hnot (hp : b.pending.get? n = none) : n ∉ b.keys := fun h => by
    obtain ⟨p, hp'⟩ := mem_keys.mp h
    simp [hp] at hp'
  cases h with
  | early he => exact .inl ⟨rfl, .inl ⟨rfl, by omega⟩⟩
  | grace _ _ _ hg => exact .inl ⟨rfl, .inl ⟨rfl, hg⟩⟩
  | underrun _ _ _ hl => exact .inl ⟨rfl, .inr ⟨rfl, hl⟩⟩
  | @rebased e p _ _ hf hfar hu =>
    obtain ⟨limit, hl, hlt⟩ := hfar
    obtain ⟨rfl, _⟩ := Profile.dev_u64 hl
    obtain ⟨rfl, _⟩ := Profile.dev_u64 hu
    obtain ⟨ks, hk⟩ := keys_first hf
    have hs := b.keys_sorted
    have hkeys : ((b.rebased now e).afterPacket e (e + frameSamples) t).keys =
        b.keys.filter (· ≠ e) := by
      simpa [keys, afterPacket, JitterBuffer.rebased] using keys_erase b.pending e
    refine .inr (.inl ⟨e, p, rfl, by simp [hk], by omega, by simp [afterPacket],
      by simp [afterPacket], hkeys, ?_⟩)
    rw [hk] at hs
    rw [hkeys, hk, filter_ne_head hs, strandedFrom_jump hlt]
  | played _ _ hp hu =>
    obtain ⟨rfl, _⟩ := Profile.dev_u64 hu
    have hmem : n ∈ b.keys := mem_keys.mpr ⟨_, hp⟩
    have hkeys : (b.afterPacket n (n + frameSamples) t).keys = b.keys.filter (· ≠ n) := by
      simpa [keys, afterPacket] using keys_erase b.pending n
    refine .inr (.inl ⟨n, _, rfl, hmem, le_rfl, by simp [afterPacket], by simp [afterPacket],
      hkeys, ?_⟩)
    have hs := b.keys_sorted
    rw [hkeys]
    cases hk : b.keys with
    | nil => simp [hk] at hmem
    | cons e ks =>
      rw [hk] at hmem hs
      exact strandedFrom_play hs hmem
  | fec _ hnear hp hl hu _ =>
    obtain ⟨rfl, _⟩ := Profile.dev_u64 hu
    exact .inr (.inr ⟨by simp, hnot hp, hl, rfl, rfl, rfl, rfl,
      strandedFrom_concealed hnear hp (by omega)⟩)
  | conceal _ hnear hp hl hu _ =>
    obtain ⟨rfl, _⟩ := Profile.dev_u64 hu
    exact .inr (.inr ⟨by simp, hnot hp, hl, rfl, rfl, rfl, rfl,
      strandedFrom_concealed hnear hp (by omega)⟩)

end

theorem stranded_le (b : JitterBuffer) : b.stranded ≤ b.pending.length := by
  rw [← keys_length, stranded]
  split
  · exact strandedFrom_le_length _ _
  · exact strandedFrom_le_length _ _

theorem stranded_of_cursor {b : JitterBuffer} {c : Nat} (h : b.nextPlayoutTimestampSamples = some c) :
    b.stranded = strandedFrom c b.keys := by
  simp [stranded, h]

/-- A buffer with few stranded packets and everything pending up to `M`. Once
the cursor is past `M` it can only conceal, and each concealment raises the
target depth, until the target exceeds what is pending. -/
structure Draining (M : Nat) (b : JitterBuffer) : Prop where
  wf : b.WellFormed
  few : b.stranded < jitterMaxTargetDepth
  keys_le : ∀ k ∈ b.keys, k ≤ M
  cursor : ∀ c, b.nextPlayoutTimestampSamples = some c → c ≤ M + frameSamples ∨
    (b.pending.length < jitterMaxTargetDepth ∧
      c + frameSamples * (jitterMaxTargetDepth - b.targetDepth) ≤
        M + frameSamples * jitterMaxTargetDepth)

def framesLeft (M : Nat) (b : JitterBuffer) : Nat :=
  match b.nextPlayoutTimestampSamples with
  | some c => (M + frameSamples * jitterMaxTargetDepth - c) / frameSamples
  | none =>
    if b.pending.length < b.targetDepth then 0
    else (M + frameSamples * jitterMaxTargetDepth) / frameSamples

section

variable {M : Nat} {b b' : JitterBuffer} {now n t : Nat} {d : PlayoutDecision}

theorem Draining.cursor_le (h : Draining M b) (hn : b.nextPlayoutTimestampSamples = some n) :
    n ≤ M + frameSamples * jitterMaxTargetDepth := by
  have hc := h.cursor n hn
  simp only [frameSamples, jitterMaxTargetDepth] at hc ⊢
  omega

theorem strandedFrom_past {c : Nat} {ks : List Nat} (h : ∀ k ∈ ks, k < c) :
    strandedFrom c ks = ks.length := by
  cases ks with
  | nil => rfl
  | cons e ks =>
    have hoff : ∀ k ∈ e :: ks, ¬ OnGrid c k := fun k hk hg => absurd (h k hk) (by have := hg.1; omega)
    have he := h e List.mem_cons_self
    rw [strandedFrom, if_neg]
    · congr 1
      exact List.filter_eq_self.mpr fun k hk => by simpa using hoff k hk
    · intro hor
      rcases hor with hlt | hg
      · omega
      · exact hoff e List.mem_cons_self hg

theorem Draining.concealed (h : Draining M b) (hn : b.nextPlayoutTimestampSamples = some n)
    (hl : b.targetDepth ≤ b.pending.length) :
    n + frameSamples ≤ M + frameSamples ∨ (b.pending.length < jitterMaxTargetDepth ∧
      n + frameSamples +
        frameSamples * (jitterMaxTargetDepth - min (b.targetDepth + 1) jitterMaxTargetDepth) ≤
          M + frameSamples * jitterMaxTargetDepth) := by
  by_cases hM : n ≤ M
  · exact .inl (by omega)
  · have hlt : b.pending.length < jitterMaxTargetDepth := by
      have hbehind : ∀ k ∈ b.keys, k < n := fun k hk => (h.keys_le k hk).trans_lt (not_le.mp hM)
      rw [← keys_length, ← strandedFrom_past hbehind]
      exact stranded_of_cursor hn ▸ h.few
    have hmin := h.wf.minDepth
    have hc := h.cursor n hn
    refine .inr ⟨hlt, ?_⟩
    simp only [frameSamples, jitterMaxTargetDepth, jitterMinDepth] at hc hlt hmin ⊢
    omega

theorem Draining.dueStep (h : Draining M b) (hn : b.nextPlayoutTimestampSamples = some n)
    (hs : DueStep .dev b now n t d b') :
    Draining M b' ∧ framesLeft M b' + (if d ≠ .hold then 1 else 0) ≤ framesLeft M b := by
  have hw' := h.wf.dueStep hs
  have hstr := stranded_of_cursor hn
  have hle := h.cursor_le hn
  have hleft : framesLeft M b = (M + frameSamples * jitterMaxTargetDepth - n) / frameSamples := by
    simp [framesLeft, hn]
  rcases hs.strands h.wf with ⟨rfl, ⟨rfl, _⟩ | ⟨rfl, hl⟩⟩ |
    ⟨k, p, rfl, hk, hnk, hnext, _, hkeys, hsame⟩ | ⟨hd, _, hl, hnext, _, hpend, htarget, hsame⟩
  · exact ⟨h, by simp⟩
  · have hfew := (stranded_le b.underrun).trans_lt (hl.trans_le h.wf.maxDepth)
    exact ⟨⟨hw', hfew, h.keys_le, by simp [underrun]⟩, by simp [framesLeft, underrun, hl]⟩
  · have hkM := h.keys_le k hk
    have hfew : b'.stranded < jitterMaxTargetDepth := by
      rw [stranded_of_cursor hnext, hsame, ← hstr]
      exact h.few
    refine ⟨⟨hw', hfew, fun j hj => ?_, fun c hc => ?_⟩, ?_⟩
    · exact h.keys_le j (List.mem_filter.mp (hkeys ▸ hj)).1
    · obtain rfl := Option.some.inj (hnext.symm.trans hc)
      exact .inl (by omega)
    · rw [hleft, framesLeft, hnext]
      simp only [frameSamples, jitterMaxTargetDepth] at hle ⊢
      simp only [ne_eq, reduceCtorEq, not_false_eq_true, if_true]
      omega
  · have hkeys : b'.keys = b.keys := by rw [keys, keys, hpend]
    have hfew : b'.stranded < jitterMaxTargetDepth := by
      rw [stranded_of_cursor hnext, hkeys, hsame, ← hstr]
      exact h.few
    have hnew := h.concealed hn hl
    refine ⟨⟨hw', hfew, hkeys ▸ h.keys_le, fun c hc => ?_⟩, ?_⟩
    · obtain rfl := Option.some.inj (hnext.symm.trans hc)
      rw [hpend, htarget]
      exact hnew
    · rw [hleft, framesLeft, hnext, if_pos hd]
      simp only [frameSamples, jitterMaxTargetDepth] at hle hnew ⊢
      omega

theorem Draining.prime (h : Draining M b) (hn : b.nextPlayoutTimestampSamples = none)
    (hl : b.targetDepth ≤ b.pending.length) (now : Nat) :
    Draining M (b.prime now) ∧ framesLeft M (b.prime now) ≤ framesLeft M b := by
  obtain ⟨s, p, t, hf, _, hp⟩ := h.wf.prime hl now
  obtain ⟨ks, hk⟩ := keys_first hf
  have hnext : (b.prime now).nextPlayoutTimestampSamples = some s := by rw [hp]
  have hkeys : (b.prime now).keys = b.keys := rfl
  have hs : s ≤ M := h.keys_le s (by simp [hk])
  have hfew : (b.prime now).stranded < jitterMaxTargetDepth := by
    have hsame : b.stranded = strandedFrom s b.keys := by simp [stranded, hn, hk]
    rw [stranded_of_cursor hnext, hkeys, ← hsame]
    exact h.few
  refine ⟨⟨h.wf.primed hl now, hfew, h.keys_le, fun c hc => ?_⟩, ?_⟩
  · obtain rfl := Option.some.inj (hnext.symm.trans hc)
    exact .inl (by omega)
  · rw [framesLeft, framesLeft, hnext, hn]
    simp only [not_lt.mpr hl, if_false]
    exact Nat.div_le_div_right (by omega)

theorem Draining.decision (h : Draining M b)
    (hM : M + frameSamples * (jitterMaxTargetDepth + driftRebaseThresholdFrames) < u64Range)
    (now : Nat) :
    ∃ d b', b.nextPlayoutDecision .dev now = some (d, b') ∧ Draining M b' ∧
      framesLeft M b' + (if d ≠ .hold then 1 else 0) ≤ framesLeft M b := by
  have hc : ∀ c, b.nextPlayoutTimestampSamples = some c → c + reach < u64Range := by
    intro c hc
    have hle := h.cursor_le hc
    simp only [frameSamples, jitterMaxTargetDepth, driftRebaseThresholdFrames, reach] at hM hle ⊢
    omega
  have hk : ∀ e ∈ b.pending.entries, e.1 + reach < u64Range := by
    intro e he
    have hle := h.keys_le e.1 (List.mem_map_of_mem he)
    simp only [frameSamples, jitterMaxTargetDepth, driftRebaseThresholdFrames, reach] at hM hle ⊢
    omega
  obtain ⟨d, b', hd⟩ := decision_returns .dev now h.wf hc hk
  refine ⟨d, b', hd, ?_⟩
  rcases decision_cases h.wf hd with ⟨_, _, rfl, rfl⟩ | ⟨hn, hl, s, p, t, _, _, hp, hs⟩ |
    ⟨n, t, hn, _, hs⟩
  · exact ⟨h, by simp⟩
  · obtain ⟨hprime, hle⟩ := h.prime hn hl now
    obtain ⟨hd', hv⟩ := hprime.dueStep (by rw [hp]) hs
    exact ⟨hd', hv.trans hle⟩
  · exact h.dueStep hn hs

end

def horizon (b : JitterBuffer) : Nat := b.keys.foldl max (b.nextPlayoutTimestampSamples.getD 0)

theorem le_foldl_max (a : Nat) (ks : List Nat) :
    a ≤ ks.foldl max a ∧ ∀ k ∈ ks, k ≤ ks.foldl max a := by
  induction ks generalizing a with
  | nil => simp
  | cons e ks ih =>
    obtain ⟨hle, hmem⟩ := ih (max a e)
    refine ⟨(le_max_left a e).trans hle, fun k hk => ?_⟩
    rcases List.mem_cons.mp hk with rfl | hk
    · exact (le_max_right a k).trans hle
    · exact hmem k hk

theorem foldl_max_lt {a r : Nat} {ks : List Nat} (ha : a < r) (hk : ∀ k ∈ ks, k < r) :
    ks.foldl max a < r := by
  induction ks generalizing a with
  | nil => exact ha
  | cons e ks ih =>
    have he := hk e List.mem_cons_self
    exact ih (max_lt ha he) fun k hm => hk k (List.mem_cons_of_mem _ hm)

section

variable {b : JitterBuffer}

theorem draining_horizon (hw : b.WellFormed) (hfew : b.stranded < jitterMaxTargetDepth) :
    Draining b.horizon b := by
  refine ⟨hw, hfew, (le_foldl_max _ _).2, fun c hc => .inl ?_⟩
  have hle := (le_foldl_max (b.nextPlayoutTimestampSamples.getD 0) b.keys).1
  rw [hc] at hle
  simp only [horizon, hc]
  exact hle.trans (Nat.le_add_right _ _)

theorem Room.horizon (h : b.Room) : b.horizon + 10 * frameSamples < u64Range := by
  have hcursor : b.nextPlayoutTimestampSamples.getD 0 < u64Range - 10 * frameSamples := by
    cases hc : b.nextPlayoutTimestampSamples with
    | none => decide
    | some c =>
      have hlt := h.1 c hc
      simp only [Option.getD_some]
      omega
  have hlt : b.horizon < u64Range - 10 * frameSamples := foldl_max_lt hcursor fun k hk => by
    have := h.2 k hk
    omega
  omega

theorem drains_of_few {π : Profile} (hw : b.WellFormed) (hroom : b.Room)
    (hfew : b.stranded < jitterMaxTargetDepth) : Drains π b := by
  refine ⟨framesLeft b.horizon b, fun clock _ => ?_⟩
  have hlt : b.horizon + frameSamples * (jitterMaxTargetDepth + driftRebaseThresholdFrames) <
      u64Range := by
    have h := hroom.horizon
    simp only [frameSamples, jitterMaxTargetDepth, driftRebaseThresholdFrames] at h ⊢
    omega
  have hstep : ∀ (c : JitterBuffer) (i : JitterOp), Draining b.horizon c →
      (∃ now, i = .nextPlayoutDecision now) → ∃ o c', c.call .dev i = some (o, c') ∧
        Draining b.horizon c' ∧
        framesLeft b.horizon c' + (if emitted o then 1 else 0) ≤ framesLeft b.horizon c := by
    rintro c i hc ⟨now, rfl⟩
    obtain ⟨d, c', hd, hc', hv⟩ := hc.decision hlt now
    exact ⟨some d, c', by simp [call, hd], hc', by simpa [emitted] using hv⟩
  have hclock : ∀ i ∈ clock.map JitterOp.nextPlayoutDecision, ∃ now, i = .nextPlayoutDecision now := by
    intro i hi
    obtain ⟨now, _, rfl⟩ := List.mem_map.mp hi
    exact ⟨now, rfl⟩
  obtain ⟨tr, c, he, hcount⟩ := execute_potential hstep (draining_horizon hw hfew) hclock
  exact ⟨tr, c, execute_mono (fun c i r hr => call_of_dev hr π) he, hcount⟩

end

section

variable {b b' : JitterBuffer} {now n t : Nat} {d : PlayoutDecision}

theorem DueStep.stranded_kept (hw : b.WellFormed) (hn : b.nextPlayoutTimestampSamples = some n)
    (hs : DueStep .dev b now n t d b') (hd : d ≠ .hold) :
    b'.stranded = b.stranded ∧ b'.nextPlayoutDeadline = some (t + frameDuration) ∧
      ∃ n', b'.nextPlayoutTimestampSamples = some n' := by
  have hstr := stranded_of_cursor hn
  rcases hs.strands hw with ⟨rfl, _⟩ | ⟨k, p, rfl, _, _, hnext, hdl, _, hsame⟩ |
    ⟨_, _, _, hnext, hdl, hpend, _, hsame⟩
  · exact absurd rfl hd
  · exact ⟨by rw [stranded_of_cursor hnext, hsame, hstr], hdl, _, hnext⟩
  · have hkeys : b'.keys = b.keys := by rw [keys, keys, hpend]
    exact ⟨by rw [stranded_of_cursor hnext, hkeys, hsame, hstr], hdl, _, hnext⟩

/-- With as many stranded packets as the target depth can demand, a decision
past its grace never waits. -/
theorem DueStep.emits_of_stranded (hw : b.WellFormed)
    (hmany : jitterMaxTargetDepth ≤ b.stranded) (hnow : t + playoutLateGrace ≤ now)
    (hs : DueStep .dev b now n t d b') : d ≠ .hold := by
  have hlen := hmany.trans b.stranded_le
  have hmax := hw.maxDepth
  rcases hs.strands hw with ⟨rfl, ⟨rfl, hg⟩ | ⟨rfl, hl⟩⟩ | ⟨k, p, rfl, _⟩ | ⟨hd, _⟩
  · omega
  · omega
  · simp
  · exact hd

theorem count_of_stranded {k : Nat} {tr : List JitterTransition} (hw : b.WellFormed)
    (hn : b.nextPlayoutTimestampSamples = some n) (ht : b.nextPlayoutDeadline = some t)
    (hmany : jitterMaxTargetDepth ≤ b.stranded)
    (hnow : t + k * frameDuration + playoutLateGrace ≤ now)
    (h : execute (call .dev) b (List.replicate k (.nextPlayoutDecision now)) = some (tr, b')) :
    tr.countP (fun x => emitted x.output) = k := by
  induction k generalizing b n t tr with
  | zero =>
    simp only [List.replicate_zero, execute, Option.some.injEq, Prod.mk.injEq] at h
    simp [← h.1]
  | succ k ih =>
    cases hd : b.nextPlayoutDecision .dev now with
    | none => simp [List.replicate_succ, execute, call, hd] at h
    | some r =>
      obtain ⟨d, c⟩ := r
      cases he : execute (call .dev) c (List.replicate k (.nextPlayoutDecision now)) with
      | none => simp [List.replicate_succ, execute, call, hd, he] at h
      | some q =>
        simp only [List.replicate_succ, execute, call, hd, Option.map_some, he, Option.some.injEq,
          Prod.mk.injEq] at h
        obtain ⟨rfl, rfl⟩ := h
        have hs : DueStep .dev b now n t d c := by
          simp only [nextPlayoutDecision, hn] at hd
          exact playDue_cases hn ht hd
        have hk : t + frameDuration + k * frameDuration + playoutLateGrace ≤ now := by
          rw [Nat.succ_mul] at hnow
          omega
        have hne := hs.emits_of_stranded hw hmany (by omega)
        obtain ⟨hsame, hdl, n', hn'⟩ := hs.stranded_kept hw hn hne
        have hrest := ih (hw.decision hd) hn' hdl (hsame ▸ hmany) hk he
        rw [List.countP_cons, hrest]
        simp [emitted, hne]

end

theorem few_of_drains {b : JitterBuffer} (hw : b.WellFormed) (h : Drains .dev b) :
    b.stranded < jitterMaxTargetDepth := by
  by_contra hmany
  rw [not_lt] at hmany
  obtain ⟨bound, hb⟩ := h
  cases hn : b.nextPlayoutTimestampSamples with
  | some n =>
    obtain ⟨t, ht⟩ := hw.deadline hn
    obtain ⟨tr, c, he, hc⟩ := hb (List.replicate (bound + 1)
      (t + (bound + 1) * frameDuration + playoutLateGrace)) (List.pairwise_replicate.mpr (.inr le_rfl))
    rw [List.map_replicate] at he
    have hle := (count_of_stranded hw hn ht hmany le_rfl he).symm.trans_le hc
    omega
  | none =>
    -- The first call primes the buffer; its deadline is the clock or earlier.
    obtain ⟨tr, c, he, hc⟩ := hb (0 :: List.replicate (bound + 1)
      (frameDuration + (bound + 1) * frameDuration + playoutLateGrace)) (by
        refine List.pairwise_cons.mpr ⟨fun _ _ => Nat.zero_le _, ?_⟩
        exact List.pairwise_replicate.mpr (.inr le_rfl))
    rw [List.map_cons, List.map_replicate] at he
    cases hd : b.nextPlayoutDecision .dev 0 with
    | none => simp [execute, call, hd] at he
    | some r =>
      obtain ⟨d, m⟩ := r
      cases hrest : execute (call .dev) m (List.replicate (bound + 1)
          (.nextPlayoutDecision (frameDuration + (bound + 1) * frameDuration + playoutLateGrace))) with
      | none => simp [execute, call, hd, hrest] at he
      | some q =>
        simp only [execute, call, hd, Option.map_some, hrest, Option.some.injEq, Prod.mk.injEq] at he
        obtain ⟨rfl, rfl⟩ := he
        have hl : b.targetDepth ≤ b.pending.length :=
          hw.maxDepth.trans (hmany.trans b.stranded_le)
        have hne := decision_primes hw hn hl hd
        rcases decision_cases hw hd with ⟨_, hlt, _⟩ | ⟨_, _, s, p, t, hf, ht, hp, hs⟩ | ⟨_, _, hsome, _⟩
        · omega
        · obtain ⟨ks, hk⟩ := keys_first hf
          have hnext : (b.prime 0).nextPlayoutTimestampSamples = some s := by rw [hp]
          have hprime : (b.prime 0).stranded = b.stranded := by
            have hkeys : (b.prime 0).keys = b.keys := rfl
            rw [stranded_of_cursor hnext, hkeys, stranded, hn, hk]
            rfl
          obtain ⟨hsame, hdl, n', hn'⟩ := hs.stranded_kept (hw.primed hl 0) hnext hne
          have hcount := count_of_stranded (hw.decision hd) hn' hdl
            (by rw [hsame, hprime]; exact hmany) (by omega) hrest
          rw [List.countP_cons, hcount] at hc
          omega
        · simp [hn] at hsome

/-- Packets that are all behind the cursor are never played: the buffer
conceals as long as the cursor can advance. -/
theorem conceals_of_behind {b : JitterBuffer} {n t : Nat} (k now : Nat) (hw : b.WellFormed)
    (hn : b.nextPlayoutTimestampSamples = some n) (ht : b.nextPlayoutDeadline = some t)
    (hmany : jitterMaxTargetDepth ≤ b.pending.length) (hbehind : ∀ j ∈ b.keys, j < n)
    (hroom : n + k * frameSamples + reach < u64Range)
    (hnow : t + k * frameDuration + playoutLateGrace ≤ now) :
    ∃ tr c, execute (call .dev) b (List.replicate k (.nextPlayoutDecision now)) = some (tr, c) ∧
      decisions tr = List.replicate k .conceal := by
  induction k generalizing b n t with
  | zero => exact ⟨[], b, rfl, rfl⟩
  | succ k ih =>
    rw [Nat.succ_mul] at hroom hnow
    have hmax := hw.maxDepth
    have hnone (m : Nat) (hm : n ≤ m) : b.pending.get? m = none := by
      by_contra hsome
      obtain ⟨p, hp⟩ := Option.ne_none_iff_exists'.mp hsome
      have := hbehind m (mem_keys.mpr ⟨p, hp⟩)
      omega
    obtain ⟨d, c, hd⟩ := decision_returns .dev now hw
      (fun m hm => by rw [hn] at hm; cases hm; omega)
      (fun e he => by have := hbehind e.1 (List.mem_map_of_mem he); omega)
    have hs : DueStep .dev b now n t d c := by
      have hd' := hd
      simp only [nextPlayoutDecision, hn] at hd'
      exact playDue_cases hn ht hd'
    have hstep : d = .conceal ∧ c = b.afterLoss (n + frameSamples) t := by
      cases hs with
      | early he => omega
      | rebased _ hf hfar _ =>
        obtain ⟨limit, hl, hlt⟩ := hfar
        obtain ⟨rfl, _⟩ := Profile.dev_u64 hl
        have := hbehind _ (List.mem_map_of_mem (SortedMap.mem_of_first? hf))
        simp only at this
        omega
      | played _ _ hp _ => simp [hnone n le_rfl] at hp
      | grace _ _ _ hg => omega
      | underrun _ _ _ hl => omega
      | fec _ _ _ _ hu hp =>
        obtain ⟨rfl, _⟩ := Profile.dev_u64 hu
        simp [hnone _ (Nat.le_add_right _ _)] at hp
      | conceal _ _ _ _ hu _ =>
        obtain ⟨rfl, _⟩ := Profile.dev_u64 hu
        exact ⟨rfl, rfl⟩
    obtain ⟨rfl, rfl⟩ := hstep
    obtain ⟨tr, c', he, hdec⟩ := ih (n := n + frameSamples) (t := t + frameDuration)
      (hw.decision hd) rfl rfl hmany
      (fun j hj => by have := hbehind j hj; omega) (by omega) (by omega)
    refine ⟨_, c', by simp only [List.replicate_succ, execute, call, hd, Option.map_some, he]; rfl, ?_⟩
    rw [decisions, List.filterMap_cons]
    simp only [List.replicate_succ]
    exact congrArg _ hdec

end JitterBuffer

/-- With room below the end of the `u64` range, a buffer drains when fewer
packets are stranded than the target depth can demand, in every build; and
it drains only then, as long as additions are checked. -/
theorem drains_iff {π : Profile} {ops : List JitterOp} {tr : List JitterTransition}
    {b : JitterBuffer} (h : jitterRun π ops = some (tr, b)) (hroom : b.Room) :
    (Drains .dev b ↔ b.stranded < jitterMaxTargetDepth) ∧
      (b.stranded < jitterMaxTargetDepth → Drains π b) := by
  have hw : b.WellFormed := jitterTrace_wellFormed (jitterRun_trace h)
  exact ⟨⟨JitterBuffer.few_of_drains hw, JitterBuffer.drains_of_few hw hroom⟩,
    JitterBuffer.drains_of_few hw hroom⟩

/-- Seven packets one sample apart, of which the first is played. -/
def offGridBurst : List JitterOp :=
  (List.range 7).map (fun i => .insert ⟨i, []⟩) ++ [.nextPlayoutDecision (millis 100)]

theorem offGridBurst_conceals_for_ever :
    ∃ tr b, jitterRun .dev offGridBurst = some (tr, b) ∧ b.Room ∧ ¬ Drains .dev b ∧
      ∀ k now, k * frameSamples + 5 * frameSamples < u64Range →
        millis 200 + k * frameDuration ≤ now → ∀ π, ∃ tr c,
          execute (JitterBuffer.call π) b (List.replicate k (.nextPlayoutDecision now)) =
            some (tr, c) ∧ decisions tr = List.replicate k .conceal := by
  have h : (jitterRun .dev offGridBurst).map (fun r => (r.2.nextPlayoutTimestampSamples,
      r.2.nextPlayoutDeadline, r.2.keys)) =
      some (some 960, some (millis 80), [1, 2, 3, 4, 5, 6]) := by decide
  obtain ⟨⟨tr, b⟩, hr, hd⟩ := Option.map_eq_some_iff.mp h
  simp only [Prod.mk.injEq] at hd
  obtain ⟨hn, ht, hk⟩ := hd
  have hw : b.WellFormed := jitterTrace_wellFormed (jitterRun_trace hr)
  refine ⟨tr, b, hr, ⟨fun c hc => ?_, fun k hm => ?_⟩, fun hdrains => ?_, fun k now hroom hnow π => ?_⟩
  · obtain rfl := Option.some.inj (hn.symm.trans hc)
    decide
  · rw [hk] at hm
    revert k
    decide
  · have hfew := JitterBuffer.few_of_drains hw hdrains
    rw [JitterBuffer.stranded_of_cursor hn, hk] at hfew
    exact absurd hfew (by decide)
  · obtain ⟨tr, c, he, hdec⟩ := JitterBuffer.conceals_of_behind k now hw hn ht
      (by rw [← JitterBuffer.keys_length, hk]; decide) (by rw [hk]; decide)
      (by simp only [frameSamples, JitterBuffer.reach, driftRebaseThresholdFrames] at hroom ⊢; omega)
      (by simp only [millis, playoutLateGrace] at hnow ⊢; omega)
    exact ⟨tr, c, execute_mono (fun c i r hr => JitterBuffer.call_of_dev hr π) he, hdec⟩

theorem drains_iff_recoveredGap :
    ∃ tr b, jitterRun .release recoveredGap = some (tr, b) ∧ b.queueDepth = 2 ∧
      Drains .release b := by
  have h : (jitterRun .release recoveredGap).map (fun r => (r.2.nextPlayoutTimestampSamples,
      r.2.queueDepth, r.2.keys, r.2.stranded)) = some (some 2880, 2, [2880, 3840], 0) := by decide
  obtain ⟨⟨tr, b⟩, hr, hd⟩ := Option.map_eq_some_iff.mp h
  simp only [Prod.mk.injEq] at hd
  obtain ⟨hn, hdepth, hk, hstr⟩ := hd
  refine ⟨tr, b, hr, hdepth, (drains_iff hr ⟨fun c hc => ?_, fun k hm => ?_⟩).2 ?_⟩
  · obtain rfl := Option.some.inj (hn.symm.trans hc)
    decide
  · rw [hk] at hm
    revert k
    decide
  · rw [hstr]
    decide

end Voicers

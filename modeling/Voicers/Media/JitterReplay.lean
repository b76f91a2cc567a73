import Voicers.Media.JitterTimeline

/-! When a jitter buffer plays its packets in order. The cursor orders the
packets of one epoch; an underrun forgets it, so whether the order survives
is decided each time the buffer primes again. -/

namespace Voicers

open Lib

def playedTimestamps (tr : List JitterTransition) : List Nat :=
  tr.filterMap fun t => match t.output with
    | some (.packet p) => some p.timestampSamples
    | _ => none

def NoReplay (tr : List JitterTransition) : Prop := (playedTimestamps tr).Pairwise (· < ·)

def Primes (t : JitterTransition) : Prop :=
  (∃ now, t.input = .nextPlayoutDecision now) ∧ t.before.nextPlayoutTimestampSamples = none ∧
    t.before.targetDepth ≤ t.before.pending.length

/-- Whenever the buffer primes, everything pending is newer than everything
played so far. -/
def PrimesAhead (tr : List JitterTransition) : Prop :=
  ∀ pre t post, tr = pre ++ t :: post → Primes t →
    ∀ s ∈ playedTimestamps pre, ∀ e ∈ t.before.pending.entries, s < e.1

theorem playedTimestamps_append (a b : List JitterTransition) :
    playedTimestamps (a ++ b) = playedTimestamps a ++ playedTimestamps b :=
  List.filterMap_append

theorem PrimesAhead.of_append {a b : List JitterTransition} (h : PrimesAhead (a ++ b)) :
    PrimesAhead a := by
  intro pre t post ha
  exact h pre t (post ++ b) (by simp [ha])

theorem primes_packet {t : JitterTransition} (hw : t.before.WellFormed) (hp : Primes t)
    (h : t.before.call .dev t.input = some (t.output, t.after)) :
    ∃ s p, t.before.pending.first? = some (s, p) ∧ playedTimestamps [t] = [s] := by
  obtain ⟨⟨now, hi⟩, hn, hl⟩ := hp
  simp only [hi, JitterBuffer.call, Option.map_eq_some_iff, Prod.mk.injEq] at h
  obtain ⟨⟨d, b'⟩, hd, ho, rfl⟩ := h
  have hne := JitterBuffer.decision_primes hw hn hl hd
  obtain ⟨n, hs, hsome | ⟨_, p, hf⟩⟩ := JitterBuffer.decision_slotStep hw hd hne
  · simp [hn] at hsome
  · obtain ⟨rfl, _⟩ := hs.packet_at (SortedMap.get?_of_first? hf)
    have hk : p.timestampSamples = n := hw.keys _ (SortedMap.mem_of_first? hf)
    exact ⟨n, p, hf, by simp [playedTimestamps, ← ho, hk]⟩

def PlayedBehind (played : List Nat) (b : JitterBuffer) : Prop :=
  ∀ n, b.nextPlayoutTimestampSamples = some n → ∀ s ∈ played, s < n

theorem PlayedBehind.quiet {played : List Nat} {x : JitterTransition} (hw : x.before.WellFormed)
    (h : x.before.call .dev x.input = some (x.output, x.after)) (hq : ¬ Emits x)
    (hb : PlayedBehind played x.before) : PlayedBehind played x.after := by
  intro n hn
  rcases quiet_call hw hq h with ⟨p, he⟩ | he | ⟨he, _⟩
  · exact hb n (by rw [← JitterBuffer.insert_next x.before p, ← he]; exact hn)
  · exact hb n (he ▸ hn)
  · rw [he] at hn
    simp [JitterBuffer.underrun] at hn

theorem PlayedBehind.emits {played : List Nat} {x : JitterTransition} (hw : x.before.WellFormed)
    (h : x.before.call .dev x.input = some (x.output, x.after)) (he : Emits x)
    (hb : PlayedBehind played x.before)
    (hprime : x.before.nextPlayoutTimestampSamples = none →
      ∀ s ∈ played, ∀ e ∈ x.before.pending.entries, s < e.1) :
    ∃ m, x.after.nextPlayoutTimestampSamples = some (m + frameSamples) ∧ (∀ s ∈ played, s < m) ∧
      ∀ s ∈ playedTimestamps [x], s = m := by
  obtain ⟨d, n, ho, hs, hn⟩ := emits_slotStep hw he h
  have hlt : ∀ s ∈ played, s < n := by
    rcases hn with hn | ⟨hn, p, hf⟩
    · exact hb n hn
    · exact fun s hs => hprime hn s hs _ (SortedMap.mem_of_first? hf)
  rcases hs with ⟨e, p, hf, hgap, rfl, hnext, _⟩ | ⟨hnext, ⟨p, hp, rfl⟩ | ⟨p, _, _, rfl, _⟩ | ⟨_, _, rfl⟩⟩
  · have hk : p.timestampSamples = e := hw.keys _ (SortedMap.mem_of_first? hf)
    refine ⟨e, hnext, fun s hs => ?_, by simp [playedTimestamps, ho, hk]⟩
    have := hlt s hs
    omega
  · have hk : p.timestampSamples = n := hw.keys _ (SortedMap.get?_eq_some_iff.mp hp)
    exact ⟨n, hnext, hlt, by simp [playedTimestamps, ho, hk]⟩
  · exact ⟨n, hnext, hlt, by simp [playedTimestamps, ho]⟩
  · exact ⟨n, hnext, hlt, by simp [playedTimestamps, ho]⟩

theorem playedTimestamps_quiet {x : JitterTransition} (hq : ¬ Emits x) : playedTimestamps [x] = [] := by
  cases ho : x.output with
  | none => simp [playedTimestamps, ho]
  | some d =>
    cases d with
    | packet p => exact absurd ⟨_, ho, by simp⟩ hq
    | hold | fec | conceal => simp [playedTimestamps, ho]

theorem Emits.primes {x : JitterTransition}
    (h : x.before.call .dev x.input = some (x.output, x.after)) (he : Emits x)
    (hn : x.before.nextPlayoutTimestampSamples = none) : Primes x := by
  obtain ⟨d, ho, hd⟩ := he
  cases hi : x.input with
  | insert p => simp [hi, ho, JitterBuffer.call] at h
  | nextPlayoutDecision now =>
    refine ⟨⟨now, hi⟩, hn, ?_⟩
    by_contra hl
    simp only [hi, JitterBuffer.call, JitterBuffer.nextPlayoutDecision, hn, not_le.mp hl, if_true,
      Option.map_some, Option.some.injEq, Prod.mk.injEq, ho] at h
    exact hd h.1.symm

/-- As long as every priming is ahead of what was played, the packets come
out in order and stay behind the cursor. -/
theorem played_sorted {tr : List JitterTransition} {b : JitterBuffer}
    (h : Trace (JitterBuffer.call .dev) JitterBuffer.new tr b) (hp : PrimesAhead tr) :
    NoReplay tr ∧ PlayedBehind (playedTimestamps tr) b := by
  refine h.snoc_induction (P := fun tr b => PrimesAhead tr →
    NoReplay tr ∧ PlayedBehind (playedTimestamps tr) b) ?_ ?_ hp
  · exact fun _ => ⟨.nil, by simp [PlayedBehind, playedTimestamps]⟩
  · intro tr x htr hstep ih hp
    obtain ⟨hsorted, hb⟩ := ih hp.of_append
    have hw := jitterTrace_wellFormed htr
    rw [NoReplay, playedTimestamps_append]
    by_cases he : Emits x
    · have hprime : x.before.nextPlayoutTimestampSamples = none →
          ∀ s ∈ playedTimestamps tr, ∀ e ∈ x.before.pending.entries, s < e.1 :=
        fun hn => hp tr x [] rfl (he.primes hstep hn)
      obtain ⟨m, hnext, hlt, hm⟩ := hb.emits hw hstep he hprime
      constructor
      · refine List.pairwise_append.mpr ⟨hsorted, ?_, fun s hs u hu => hm u hu ▸ hlt s hs⟩
        rw [List.pairwise_iff_forall_sublist]
        intro s u hsub
        have hlen := hsub.length_le
        have hone : (playedTimestamps [x]).length ≤ 1 := List.length_filterMap_le _ _
        simp only [List.length_cons, List.length_nil] at hlen
        omega
      · intro n hn s hs
        rw [hnext] at hn
        have hle : s ≤ m := by
          rcases List.mem_append.mp hs with hs | hs
          · exact (hlt s hs).le
          · exact (hm s hs).le
        have hpos : 0 < frameSamples := by decide
        have hnm := Option.some.inj hn
        omega
    · rw [playedTimestamps_quiet he, List.append_nil]
      exact ⟨hsorted, hb.quiet hw hstep he⟩

/-- Runs in which no addition overflows play in order exactly when they
prime ahead, and they are the same in every build. -/
theorem no_replay_iff {ops : List JitterOp} {tr : List JitterTransition} {b : JitterBuffer}
    (h : jitterRun .dev ops = some (tr, b)) :
    (NoReplay tr ↔ PrimesAhead tr) ∧ ∀ π, jitterRun π ops = some (tr, b) := by
  refine ⟨⟨?_, fun hp => (played_sorted (jitterRun_trace h) hp).1⟩, ?_⟩
  · rintro hno pre t post rfl hprimes s hs e he
    obtain ⟨hw, hc⟩ := jitterRun_mem h (x := t) (by simp)
    obtain ⟨m, p, hf, hplayed⟩ := primes_packet hw hprimes hc
    have hle := SortedMap.first?_le hf he
    have hsplit : playedTimestamps (pre ++ t :: post) =
        playedTimestamps pre ++ (playedTimestamps [t] ++ playedTimestamps post) := by
      rw [← playedTimestamps_append, ← playedTimestamps_append, List.singleton_append]
    rw [NoReplay, hsplit, hplayed] at hno
    have hlt : s < m := (List.pairwise_append.mp hno).2.2 s hs m (by simp)
    simp only at hle
    omega
  · exact fun π => execute_mono (fun c i r hr => JitterBuffer.call_of_dev hr π) h

/-- Three frames, played and then delivered a second time after the underrun
they end in. -/
def duplicatedBurst : List JitterOp :=
  [.insert ⟨0, [1]⟩, .insert ⟨960, [2]⟩, .insert ⟨1920, [3]⟩,
    .nextPlayoutDecision (millis 100), .nextPlayoutDecision (millis 100),
    .nextPlayoutDecision (millis 100), .nextPlayoutDecision (millis 200),
    .insert ⟨0, [1]⟩, .insert ⟨960, [2]⟩, .insert ⟨1920, [3]⟩, .nextPlayoutDecision (millis 200)]

theorem duplicatedBurst_replays :
    ∃ tr b, jitterRun .dev duplicatedBurst = some (tr, b) ∧
      playedTimestamps tr = [0, 960, 1920, 0] ∧ ¬ NoReplay tr := by
  have h : (jitterRun .dev duplicatedBurst).map (fun r => playedTimestamps r.1) =
      some [0, 960, 1920, 0] := by decide
  obtain ⟨⟨tr, b⟩, hr, hd⟩ := Option.map_eq_some_iff.mp h
  refine ⟨tr, b, hr, hd, ?_⟩
  rw [NoReplay]
  simp only at hd
  rw [hd]
  decide

theorem no_replay_iff_recoveredGap :
    ∃ tr b, jitterRun .dev recoveredGap = some (tr, b) ∧ playedTimestamps tr = [0, 1920] ∧
      PrimesAhead tr := by
  have h : (jitterRun .dev recoveredGap).map (fun r => playedTimestamps r.1) =
      some [0, 1920] := by decide
  obtain ⟨⟨tr, b⟩, hr, hd⟩ := Option.map_eq_some_iff.mp h
  refine ⟨tr, b, hr, hd, (no_replay_iff hr).1.mp ?_⟩
  simp only at hd
  rw [NoReplay, hd]
  decide

end Voicers

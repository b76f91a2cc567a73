import Voicers.Media.JitterAccounting

/-! The depth bound of a jitter buffer. The overflow loop removes the oldest
packets but stops at the one the cursor waits for, so the bound depends on
how many packets lie ahead of a pending cursor. -/

namespace Voicers

open Lib

def JitterBuffer.aheadOf (b : JitterBuffer) (n : Nat) : List (Nat × EncodedPacket) :=
  b.pending.entries.filter (fun e => n ≤ e.1)

/-- With `p` stored, a cursor whose packet is pending has at most
`jitterMaxDepth` packets from it on. -/
def JitterBuffer.CursorRoom (b : JitterBuffer) (p : EncodedPacket) : Prop :=
  ∀ n, b.nextPlayoutTimestampSamples = some n → ((b.store p).pending.get? n).isSome →
    ((b.store p).aheadOf n).length ≤ jitterMaxDepth

def DepthBounded (tr : List JitterTransition) : Prop :=
  ∀ x ∈ tr, ∀ p, x.input = .insert p → x.after.queueDepth ≤ jitterMaxDepth

def RoomAhead (tr : List JitterTransition) : Prop :=
  ∀ x ∈ tr, ∀ p, x.input = .insert p → x.before.isLate p = false → x.before.CursorRoom p

namespace JitterBuffer

/-- When the packet at the cursor is pending, the loop leaves exactly the
packets from the cursor on, or a part of them within the bound. -/
theorem Eviction.aheadOf_cursor {b b' : JitterBuffer} {dropped : List (Nat × EncodedPacket)} {n : Nat}
    (h : Eviction b dropped b') (hn : b.nextPlayoutTimestampSamples = some n)
    (hp : (b.pending.get? n).isSome) : b.aheadOf n = b'.aheadOf n := by
  obtain ⟨q, hq⟩ := Option.isSome_iff_exists.mp hp
  have hs := b.pending.sorted
  have hm := SortedMap.get?_eq_some_iff.mp hq
  rw [h.split] at hm hs
  have hrest : (n, q) ∈ b'.pending.entries := by
    rcases List.mem_append.mp hm with hd | hr
    · exact absurd hn.symm (h.cursor _ hd)
    · exact hr
  have hnil : dropped.filter (fun e => n ≤ e.1) = [] := by
    apply List.filter_eq_nil_iff.mpr
    intro e he
    have hlt := (List.pairwise_append.mp hs).2.2 e he _ hrest
    simpa using hlt
  rw [aheadOf, aheadOf, h.split, List.filter_append, hnil, List.nil_append]

theorem aheadOf_length_le (b : JitterBuffer) (n : Nat) : (b.aheadOf n).length ≤ b.queueDepth :=
  List.length_filter_le _ _

theorem aheadOf_first {b : JitterBuffer} {n : Nat} {p : EncodedPacket}
    (h : b.pending.first? = some (n, p)) : b.aheadOf n = b.pending.entries := by
  apply List.filter_eq_self.mpr
  intro e he
  simpa using SortedMap.first?_le h he

theorem insert_depth_iff {b : JitterBuffer} {p : EncodedPacket} (hl : b.isLate p = false) :
    (b.insert p).queueDepth ≤ jitterMaxDepth ↔ b.CursorRoom p := by
  rcases insert_cases b p with ⟨hlate, _⟩ | ⟨_, dropped, h⟩
  · simp [hl] at hlate
  · constructor
    · intro hle n hn hp
      rw [h.aheadOf_cursor hn hp]
      exact (aheadOf_length_le _ n).trans hle
    · intro hroom
      rcases h.stops with hle | ⟨⟨n, q⟩, hf, hn⟩
      · exact hle
      · have hq : (n, q) ∈ (b.store p).pending.entries :=
          h.split ▸ List.mem_append_right _ (SortedMap.mem_of_first? hf)
        have hp : ((b.store p).pending.get? n).isSome := by
          rw [SortedMap.get?_eq_some_iff.mpr hq]
          rfl
        have hle := hroom n hn.symm hp
        rw [h.aheadOf_cursor hn.symm hp, aheadOf_first hf] at hle
        exact hle

theorem decision_depth {π : Profile} {b b' : JitterBuffer} {now : Nat} {d : PlayoutDecision}
    (hw : b.WellFormed) (h : b.nextPlayoutDecision π now = some (d, b')) :
    b'.queueDepth ≤ b.queueDepth := by
  have hlen (c : JitterBuffer) : c.packets.length = c.queueDepth := by
    simp [packets, queueDepth, SortedMap.length]
  cases decision_packets hw h with
  | packet _ hpackets _ _ =>
    have hl := hpackets.length_eq
    rw [hlen, List.length_cons, hlen] at hl
    omega
  | hold _ hpackets _ _ => rw [← hlen, hpackets, hlen]
  | loss _ _ hpackets _ _ => rw [← hlen, hpackets, hlen]

end JitterBuffer

section

variable {π : Profile} {ops : List JitterOp} {tr : List JitterTransition} {b : JitterBuffer}

theorem depth_step {x : JitterTransition} (hw : x.before.WellFormed)
    (h : x.before.call π x.input = some (x.output, x.after))
    (hroom : ∀ p, x.input = .insert p → x.before.isLate p = false → x.before.CursorRoom p)
    (hd : x.before.queueDepth ≤ jitterMaxDepth) : x.after.queueDepth ≤ jitterMaxDepth := by
  cases hi : x.input with
  | insert p =>
    simp only [hi, JitterBuffer.call, Option.some.injEq, Prod.mk.injEq] at h
    rw [← h.2]
    cases hl : x.before.isLate p with
    | false => exact (JitterBuffer.insert_depth_iff hl).mpr (hroom p hi hl)
    | true =>
      rw [JitterBuffer.insert, if_pos hl]
      exact hd
  | nextPlayoutDecision now =>
    simp only [hi, JitterBuffer.call, Option.map_eq_some_iff, Prod.mk.injEq] at h
    obtain ⟨⟨d, b'⟩, hdec, _, rfl⟩ := h
    exact (JitterBuffer.decision_depth hw hdec).trans hd

theorem depth_run (h : Trace (JitterBuffer.call π) JitterBuffer.new tr b) (hroom : RoomAhead tr) :
    b.queueDepth ≤ jitterMaxDepth := by
  refine (h.invariant_on
    (I := fun c => c.WellFormed ∧ c.queueDepth ≤ jitterMaxDepth) ?_ hroom
    ⟨JitterBuffer.wellFormed_new, by decide⟩).2
  intro x hx hi he
  exact ⟨hi.1.call he, depth_step hi.1 he hx hi.2⟩

/-- Insertions keep a run within the bound exactly when the cursor has room
at each of them. -/
theorem depth_bounded_iff (h : jitterRun π ops = some (tr, b)) : DepthBounded tr ↔ RoomAhead tr := by
  constructor
  · intro hb x hx p hi hl
    have hc := (jitterRun_mem h hx).2
    simp only [hi, JitterBuffer.call, Option.some.injEq, Prod.mk.injEq] at hc
    rw [← JitterBuffer.insert_depth_iff hl, hc.2]
    exact hb x hx p hi
  · rintro hroom x hx p -
    obtain ⟨pre, post, rfl⟩ := List.append_of_mem hx
    obtain ⟨hpre, hstep, _⟩ := (jitterRun_trace h).split
    have hd := depth_run hpre fun y hy => hroom y (List.mem_append_left _ hy)
    exact depth_step (jitterRun_mem h hx).1 hstep (hroom x hx) hd

end

/-- Frames that arrive before the first one played is followed by a tick. -/
def earlyBurst (k : Nat) : List JitterOp :=
  [.insert ⟨0, []⟩, .insert ⟨960, []⟩, .insert ⟨1920, []⟩, .nextPlayoutDecision (millis 100)] ++
  (List.range k).map fun i => .insert ⟨2880 + 960 * i, []⟩

theorem depth_bounded_iff_earlyBurst :
    ∃ tr b, jitterRun .release (earlyBurst 6) = some (tr, b) ∧ b.queueDepth = 8 ∧
      DepthBounded tr ∧ RoomAhead tr := by
  have h : (jitterRun .release (earlyBurst 6)).map (fun r =>
      (r.2.queueDepth, r.1.map fun x => x.after.queueDepth)) =
      some (8, [1, 2, 3, 2, 3, 4, 5, 6, 7, 8]) := by decide
  obtain ⟨⟨tr, b⟩, hr, hd⟩ := Option.map_eq_some_iff.mp h
  simp only [Prod.mk.injEq] at hd
  have hb : DepthBounded tr := by
    intro x hx p _
    have hm : x.after.queueDepth ∈ tr.map fun x => x.after.queueDepth := List.mem_map_of_mem hx
    rw [hd.2] at hm
    revert hm
    generalize x.after.queueDepth = k
    intro hm
    simp only [List.mem_cons, List.not_mem_nil, or_false] at hm
    simp only [jitterMaxDepth]
    omega
  exact ⟨tr, b, hr, hd.1, hb, (depth_bounded_iff hr).mp hb⟩

theorem earlyBurst_exceeds_bound :
    ∃ tr b, jitterRun .dev (earlyBurst 20) = some (tr, b) ∧ b.queueDepth = 22 ∧
      ¬ DepthBounded tr := by
  have h : (jitterRun .dev (earlyBurst 20)).map (fun r => (r.2.queueDepth,
      r.1.any fun x => x.input = .insert ⟨21120, []⟩ && jitterMaxDepth < x.after.queueDepth)) =
      some (22, true) := by decide
  obtain ⟨⟨tr, b⟩, hr, hd⟩ := Option.map_eq_some_iff.mp h
  simp only [Prod.mk.injEq, List.any_eq_true, Bool.and_eq_true, decide_eq_true_eq] at hd
  obtain ⟨hdepth, x, hx, hi, hlt⟩ := hd
  refine ⟨tr, b, hr, hdepth, fun hb => ?_⟩
  have hle := hb x hx _ hi
  omega

end Voicers

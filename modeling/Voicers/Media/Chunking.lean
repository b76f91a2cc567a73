import Voicers.Media.Resampling

/-! How captured samples are cut into chunks makes no difference. The
resampling loop only looks at the front of its buffer and only appends to the
queue, so it can be interrupted anywhere. -/

namespace Voicers

variable {ρ : SampleArith}

def Ingested.map (f : CapturePipeline ρ → CapturePipeline ρ) : Ingested ρ → Ingested ρ
  | .ready p => .ready (f p)
  | .panicked => .panicked
  | .unfinished => .unfinished

namespace CapturePipeline

/-- More input behind what is buffered. -/
def extend (samples : List ρ.Sample) (p : CapturePipeline ρ) : CapturePipeline ρ :=
  { p with inputSamples := p.inputSamples ++ samples }

/-- More frames in front of the ready ones. -/
def behind (front : List (List ρ.Sample)) (p : CapturePipeline ρ) : CapturePipeline ρ :=
  { p with readyFrames := front ++ p.readyFrames }

/-- The chunks have been taken in and the pipeline is left as `q`. -/
def Returns (p : CapturePipeline ρ) (chunks : List (CaptureChunk ρ)) (q : CapturePipeline ρ) :
    Prop :=
  ∃ fuel, p.ingestAll fuel chunks = .ready q

/-- The loop ends with the outcome `r`. -/
def Settles (p : CapturePipeline ρ) (r : Ingested ρ) : Prop :=
  r ≠ .unfinished ∧ ∃ fuel, rebuildReadyFrames fuel p = r

section

variable {p q : CapturePipeline ρ} {left right : ρ.Sample} {rest : List ρ.Sample} {r : Ingested ρ}

theorem finishFrame_extend (samples : List ρ.Sample) (p : CapturePipeline ρ) :
    (p.extend samples).finishFrame = p.finishFrame.extend samples := by
  by_cases hlen : p.frameAssembly.length = frameSamples
  · have hsame : (p.extend samples).frameAssembly.length = frameSamples := hlen
    rw [finishFrame, if_pos hsame, finishFrame, if_pos hlen]
    rfl
  · have hsame : (p.extend samples).frameAssembly.length ≠ frameSamples := hlen
    rw [finishFrame, if_neg hsame, finishFrame, if_neg hlen]

theorem finishFrame_behind (front : List (List ρ.Sample)) (p : CapturePipeline ρ) :
    (p.behind front).finishFrame = p.finishFrame.behind front := by
  by_cases hlen : p.frameAssembly.length = frameSamples
  · have hsame : (p.behind front).frameAssembly.length = frameSamples := hlen
    rw [finishFrame, if_pos hsame, finishFrame, if_pos hlen]
    simp only [behind, List.append_assoc]
    rfl
  · have hsame : (p.behind front).frameAssembly.length ≠ frameSamples := hlen
    rw [finishFrame, if_neg hsame, finishFrame, if_neg hlen]

theorem resample_extend (h : p.resample left right = some q) (samples : List ρ.Sample) :
    (p.extend samples).resample left right = some (q.extend samples) := by
  rw [resample_eq] at h
  split at h
  · cases h
  · next henough =>
    obtain rfl := Option.some.inj h
    have hnext : (p.extend samples).nextCursor = p.nextCursor := rfl
    have hdrop : (p.extend samples).inputSamples.drop (ρ.floor p.nextCursor) =
        p.inputSamples.drop (ρ.floor p.nextCursor) ++ samples :=
      List.drop_append_of_le_length (Nat.not_lt.mp henough)
    rw [resample_eq, hnext, if_neg, ← finishFrame_extend, hdrop]
    · rfl
    · simp only [extend, List.length_append]
      omega

theorem resample_behind (front : List (List ρ.Sample)) (p : CapturePipeline ρ)
    (left right : ρ.Sample) :
    (p.behind front).resample left right = (p.resample left right).map (behind front) := by
  rw [resample_eq, resample_eq]
  have hnext : (p.behind front).nextCursor = p.nextCursor := rfl
  have hinput : (p.behind front).inputSamples = p.inputSamples := rfl
  rw [hnext, hinput]
  split
  · rfl
  · rw [Option.map_some, ← finishFrame_behind]
    rfl

/-- The loop finds two samples to go between, or it stops. -/
theorem between_or_short (p : CapturePipeline ρ) :
    (∃ left right rest, p.inputSamples.drop (ρ.floor p.outputCursor) = left :: right :: rest) ∨
      ∀ fuel, rebuildReadyFrames (fuel + 1) p = .ready p := by
  cases hd : p.inputSamples.drop (ρ.floor p.outputCursor) with
  | nil => exact .inr fun fuel => by simp only [rebuildReadyFrames, hd]
  | cons left rest =>
    cases rest with
    | nil => exact .inr fun fuel => by simp only [rebuildReadyFrames, hd]
    | cons right rest => exact .inl ⟨left, right, rest, rfl⟩

theorem rebuild_panics (hd : p.inputSamples.drop (ρ.floor p.outputCursor) = left :: right :: rest)
    (hr : p.resample left right = none) (fuel : Nat) :
    rebuildReadyFrames (fuel + 1) p = .panicked := by
  simp only [rebuildReadyFrames, hd, hr]

theorem rebuild_turns (hd : p.inputSamples.drop (ρ.floor p.outputCursor) = left :: right :: rest)
    (hr : p.resample left right = some q) (fuel : Nat) :
    rebuildReadyFrames (fuel + 1) p = rebuildReadyFrames fuel q := by
  simp only [rebuildReadyFrames, hd, hr]

theorem drop_extend (hd : p.inputSamples.drop (ρ.floor p.outputCursor) = left :: right :: rest)
    (samples : List ρ.Sample) :
    (p.extend samples).inputSamples.drop (ρ.floor (p.extend samples).outputCursor) =
      left :: right :: (rest ++ samples) := by
  have hlen := congrArg List.length hd
  simp only [List.length_drop, List.length_cons] at hlen
  have hle : ρ.floor p.outputCursor ≤ p.inputSamples.length := by omega
  simp only [extend]
  rw [List.drop_append_of_le_length hle, hd]
  rfl

theorem rebuild_le {fuel fuel' : Nat} (hle : fuel ≤ fuel')
    (h : rebuildReadyFrames fuel p ≠ .unfinished) :
    rebuildReadyFrames fuel' p = rebuildReadyFrames fuel p := by
  induction hle with
  | refl => rfl
  | step _ ih =>
    rw [← ih]
    rw [← ih] at h
    exact rebuildReadyFrames_succ h

theorem Settles.unique {r' : Ingested ρ} (h : p.Settles r) (h' : p.Settles r') : r = r' := by
  obtain ⟨hr, fuel, rfl⟩ := h
  obtain ⟨hr', fuel', rfl⟩ := h'
  rcases Nat.le_total fuel fuel' with hle | hle
  · exact (rebuild_le hle hr).symm
  · exact rebuild_le hle hr'

theorem settles_turn (hd : p.inputSamples.drop (ρ.floor p.outputCursor) = left :: right :: rest)
    (hr : p.resample left right = some q) : p.Settles r ↔ q.Settles r := by
  constructor
  · rintro ⟨hne, fuel, hfuel⟩
    cases fuel with
    | zero => exact absurd hfuel.symm hne
    | succ fuel => exact ⟨hne, fuel, (rebuild_turns hd hr fuel).symm.trans hfuel⟩
  · rintro ⟨hne, fuel, hfuel⟩
    exact ⟨hne, fuel + 1, (rebuild_turns hd hr fuel).trans hfuel⟩

/-- What the loop does with more input it does from where it stopped without. -/
theorem settles_extend {fuel : Nat} (h : rebuildReadyFrames fuel p = .ready q)
    (samples : List ρ.Sample) : (p.extend samples).Settles r ↔ (q.extend samples).Settles r := by
  induction fuel generalizing p with
  | zero => cases h
  | succ fuel ih =>
    rcases p.between_or_short with ⟨left, right, rest, hd⟩ | hstop
    · cases hr : p.resample left right with
      | none =>
        rw [rebuild_panics hd hr] at h
        cases h
      | some p' =>
        rw [rebuild_turns hd hr] at h
        rw [settles_turn (drop_extend hd samples) (resample_extend hr samples)]
        exact ih h
    · obtain rfl := Ingested.ready.inj ((hstop fuel).symm.trans h)
      exact Iff.rfl

theorem unfinished_extend {fuel : Nat} (h : rebuildReadyFrames fuel p = .unfinished)
    (samples : List ρ.Sample) : rebuildReadyFrames fuel (p.extend samples) = .unfinished := by
  induction fuel generalizing p with
  | zero => rfl
  | succ fuel ih =>
    rcases p.between_or_short with ⟨left, right, rest, hd⟩ | hstop
    · cases hr : p.resample left right with
      | none =>
        rw [rebuild_panics hd hr] at h
        cases h
      | some p' =>
        rw [rebuild_turns hd hr] at h
        rw [rebuild_turns (drop_extend hd samples) (resample_extend hr samples)]
        exact ih h
    · rw [hstop fuel] at h
      cases h

theorem rebuild_behind (front : List (List ρ.Sample)) (fuel : Nat) (p : CapturePipeline ρ) :
    rebuildReadyFrames fuel (p.behind front) = (rebuildReadyFrames fuel p).map (behind front) := by
  induction fuel generalizing p with
  | zero => rfl
  | succ fuel ih =>
    have hfront : (p.behind front).inputSamples.drop (ρ.floor (p.behind front).outputCursor) =
        p.inputSamples.drop (ρ.floor p.outputCursor) := rfl
    cases hd : p.inputSamples.drop (ρ.floor p.outputCursor) with
    | nil => simp only [rebuildReadyFrames, hfront, hd, Ingested.map]
    | cons left rest =>
      cases rest with
      | nil => simp only [rebuildReadyFrames, hfront, hd, Ingested.map]
      | cons right rest =>
        have hresample := resample_behind front p left right
        cases hr : p.resample left right with
        | none =>
          rw [hr] at hresample
          rw [rebuild_panics (hfront.trans hd) hresample, rebuild_panics hd hr]
          rfl
        | some q =>
          rw [hr] at hresample
          rw [rebuild_turns (hfront.trans hd) hresample, rebuild_turns hd hr]
          exact ih q

theorem settles_behind {front : List (List ρ.Sample)} :
    (p.behind front).Settles (.ready q) ↔ ∃ q', p.Settles (.ready q') ∧ q = q'.behind front := by
  constructor
  · rintro ⟨_, fuel, hfuel⟩
    rw [rebuild_behind] at hfuel
    cases hr : rebuildReadyFrames fuel p with
    | ready q' =>
      rw [hr] at hfuel
      exact ⟨q', ⟨by simp, fuel, hr⟩, (Ingested.ready.inj hfuel).symm⟩
    | panicked => simp [hr, Ingested.map] at hfuel
    | unfinished => simp [hr, Ingested.map] at hfuel
  · rintro ⟨q', ⟨_, fuel, hfuel⟩, rfl⟩
    exact ⟨by simp, fuel, by rw [rebuild_behind, hfuel, Ingested.map]⟩

/-- The loop keeps the rate and only appends to the queue. -/
theorem finishFrame_appends (p : CapturePipeline ρ) :
    p.finishFrame.sampleRateHz = p.sampleRateHz ∧ p.readyFrames <+: p.finishFrame.readyFrames := by
  by_cases hlen : p.frameAssembly.length = frameSamples
  · rw [finishFrame, if_pos hlen]
    exact ⟨rfl, List.prefix_append _ _⟩
  · rw [finishFrame, if_neg hlen]
    exact ⟨rfl, List.prefix_refl _⟩

theorem rebuild_appends {fuel : Nat} (h : rebuildReadyFrames fuel p = .ready q) :
    q.sampleRateHz = p.sampleRateHz ∧ p.readyFrames <+: q.readyFrames := by
  induction fuel generalizing p with
  | zero => cases h
  | succ fuel ih =>
    rcases p.between_or_short with ⟨left, right, rest, hd⟩ | hstop
    · cases hr : p.resample left right with
      | none =>
        rw [rebuild_panics hd hr] at h
        cases h
      | some p' =>
        rw [rebuild_turns hd hr] at h
        obtain ⟨hrate, hqueue⟩ := ih h
        rw [resample_eq] at hr
        split at hr
        · cases hr
        · obtain rfl := Option.some.inj hr
          obtain ⟨hrate', hqueue'⟩ := finishFrame_appends { p with
            frameAssembly := p.frameAssembly ++
              [left + (right - left) * (p.outputCursor - (ρ.floor p.outputCursor : ρ.Sample))]
            inputSamples := p.inputSamples.drop (ρ.floor p.nextCursor)
            outputCursor := if 0 < ρ.floor p.nextCursor then
                p.nextCursor - (ρ.floor p.nextCursor : ρ.Sample)
              else p.nextCursor }
          exact ⟨hrate.trans hrate', hqueue'.trans hqueue⟩
    · obtain rfl := Ingested.ready.inj ((hstop fuel).symm.trans h)
      exact ⟨rfl, List.prefix_refl _⟩

/-- The frames the bound drops. -/
def dropped (p : CapturePipeline ρ) : List (List ρ.Sample) :=
  p.readyFrames.take (p.readyFrames.length - maxCaptureQueueDepth)

theorem dropOldest_behind (p : CapturePipeline ρ) : p.dropOldest.behind p.dropped = p := by
  simp only [dropOldest, behind, dropped, List.take_append_drop]

/-- A queue that has been cut to its bound and then grown is cut to the same
frames as one that has not. -/
theorem dropOldest_grown {q' : CapturePipeline ρ}
    (h : p.dropOldest.readyFrames <+: q'.readyFrames) :
    (q'.behind p.dropped).dropOldest = q'.dropOldest := by
  have hlen : p.dropOldest.readyFrames.length ≤ q'.readyFrames.length := h.length_le
  have hcut : p.dropOldest.readyFrames.length =
      p.readyFrames.length - (p.readyFrames.length - maxCaptureQueueDepth) := List.length_drop
  have hfront : p.dropped.length = p.readyFrames.length - maxCaptureQueueDepth := by
    simp only [dropped, List.length_take]
    omega
  have hqueue : (p.dropped ++ q'.readyFrames).drop
      ((p.dropped ++ q'.readyFrames).length - maxCaptureQueueDepth) =
      q'.readyFrames.drop (q'.readyFrames.length - maxCaptureQueueDepth) := by
    rw [List.length_append, List.drop_append]
    by_cases hnone : p.dropped.length = 0
    · rw [List.eq_nil_of_length_eq_zero hnone]
      simp
    · have hsplit : p.dropped.length + q'.readyFrames.length - maxCaptureQueueDepth -
          p.dropped.length = q'.readyFrames.length - maxCaptureQueueDepth := by omega
      rw [hsplit, List.drop_eq_nil_of_le (by omega), List.nil_append]
  simp only [dropOldest, behind, hqueue]

end

section

variable {p q : CapturePipeline ρ} {rate : UInt32} {a b : List ρ.Sample}

theorem ingest_nonempty (ha : a ≠ []) (fuel : Nat) : p.ingest fuel ⟨rate, a⟩ =
    (rebuildReadyFrames fuel (p.accept ⟨rate, a⟩)).map dropOldest := by
  have hempty : (CaptureChunk.mk (ρ := ρ) rate a).samples.isEmpty = false := by
    cases a with
    | nil => exact absurd rfl ha
    | cons => rfl
  rw [ingest, hempty, if_neg Bool.false_ne_true]
  cases rebuildReadyFrames fuel (p.accept ⟨rate, a⟩) <;> rfl

theorem ingestAll_le {fuel fuel' : Nat} (hle : fuel ≤ fuel') {chunks : List (CaptureChunk ρ)}
    (h : p.ingestAll fuel chunks ≠ .unfinished) :
    p.ingestAll fuel' chunks = p.ingestAll fuel chunks := by
  induction chunks generalizing p with
  | nil => rfl
  | cons chunk chunks ih =>
    simp only [ingestAll] at h ⊢
    have hmore : p.ingest fuel chunk ≠ .unfinished →
        p.ingest fuel' chunk = p.ingest fuel chunk := ingest_le hle
    cases hi : p.ingest fuel chunk with
    | ready m =>
      simp only [hi] at h
      simp only [hmore (by simp [hi]), hi]
      exact ih h
    | panicked => simp only [hmore (by simp [hi]), hi]
    | unfinished => simp [hi] at h

/-- All fuel that is enough gives one outcome. -/
theorem Returns.outcome {chunks : List (CaptureChunk ρ)} (h : p.Returns chunks q) (fuel : Nat)
    (hr : p.ingestAll fuel chunks ≠ .unfinished) : p.ingestAll fuel chunks = .ready q := by
  obtain ⟨fuel', hfuel⟩ := h
  rcases Nat.le_total fuel fuel' with hle | hle
  · rw [← ingestAll_le hle hr, hfuel]
  · rw [ingestAll_le hle (by simp [hfuel]), hfuel]

theorem returns_cons {chunk : CaptureChunk ρ} {chunks : List (CaptureChunk ρ)} :
    p.Returns (chunk :: chunks) q ↔
      ∃ m, (∃ fuel, p.ingest fuel chunk = .ready m) ∧ m.Returns chunks q := by
  constructor
  · rintro ⟨fuel, hfuel⟩
    simp only [ingestAll] at hfuel
    cases hi : p.ingest fuel chunk with
    | ready m =>
      simp only [hi] at hfuel
      exact ⟨m, ⟨fuel, hi⟩, fuel, hfuel⟩
    | panicked => simp [hi] at hfuel
    | unfinished => simp [hi] at hfuel
  · rintro ⟨m, ⟨fuel, hi⟩, fuel', hrest⟩
    have hi' : p.ingest (max fuel fuel') chunk = .ready m := by
      rw [ingest_le (Nat.le_max_left fuel fuel') (by simp [hi]), hi]
    refine ⟨max fuel fuel', ?_⟩
    simp only [ingestAll, hi']
    rw [ingestAll_le (Nat.le_max_right fuel fuel') (by simp [hrest]), hrest]

theorem returns_nil : p.Returns [] q ↔ q = p := by
  constructor
  · rintro ⟨fuel, hfuel⟩
    exact (Ingested.ready.inj hfuel).symm
  · rintro rfl
    exact ⟨0, rfl⟩

theorem returns_singleton {chunk : CaptureChunk ρ} :
    p.Returns [chunk] q ↔ ∃ fuel, p.ingest fuel chunk = .ready q := by
  rw [returns_cons]
  constructor
  · rintro ⟨m, hm, hq⟩
    exact returns_nil.mp hq ▸ hm
  · exact fun hq => ⟨q, hq, returns_nil.mpr rfl⟩

/-- A chunk that is not empty leaves what the loop leaves, cut to the bound. -/
theorem ingests_iff (ha : a ≠ []) : (∃ fuel, p.ingest fuel ⟨rate, a⟩ = .ready q) ↔
    ∃ m, (p.accept ⟨rate, a⟩).Settles (.ready m) ∧ q = m.dropOldest := by
  constructor
  · rintro ⟨fuel, hfuel⟩
    rw [ingest_nonempty ha] at hfuel
    cases hr : rebuildReadyFrames fuel (p.accept ⟨rate, a⟩) with
    | ready m =>
      rw [hr] at hfuel
      exact ⟨m, ⟨by simp, fuel, hr⟩, (Ingested.ready.inj hfuel).symm⟩
    | panicked => simp [hr, Ingested.map] at hfuel
    | unfinished => simp [hr, Ingested.map] at hfuel
  · rintro ⟨m, ⟨_, fuel, hfuel⟩, rfl⟩
    exact ⟨fuel, by rw [ingest_nonempty ha, hfuel, Ingested.map]⟩

theorem accept_rate (p : CapturePipeline ρ) (chunk : CaptureChunk ρ) :
    (p.accept chunk).sampleRateHz = chunk.sampleRateHz := by
  unfold accept
  by_cases hrate : p.sampleRateHz = chunk.sampleRateHz
  · rw [if_pos hrate]
    exact hrate
  · rw [if_neg hrate]

theorem accept_append (p : CapturePipeline ρ) (rate : UInt32) (a b : List ρ.Sample) :
    p.accept ⟨rate, a ++ b⟩ = (p.accept ⟨rate, a⟩).extend b := by
  simp only [accept, extend, List.append_assoc]

theorem accept_same_rate (h : p.sampleRateHz = rate) (b : List ρ.Sample) :
    p.accept ⟨rate, b⟩ = p.extend b := by
  simp only [accept, h, if_true, extend]

/-- After the first chunk the bound is applied, and after the second the queue
is as if it had not been. -/
theorem settles_dropOldest {m : CapturePipeline ρ} (b : List ρ.Sample) :
    (∃ q', (m.extend b).Settles (.ready q') ∧ q = q'.dropOldest) ↔
      ∃ q', (m.dropOldest.extend b).Settles (.ready q') ∧ q = q'.dropOldest := by
  have hbehind : m.extend b = (m.dropOldest.extend b).behind m.dropped :=
    congrArg (extend b) m.dropOldest_behind.symm
  constructor
  · rintro ⟨q', hq', rfl⟩
    rw [hbehind, settles_behind] at hq'
    obtain ⟨last, ⟨hne, fuel, hlast⟩, rfl⟩ := hq'
    exact ⟨last, ⟨hne, fuel, hlast⟩, dropOldest_grown (rebuild_appends hlast).2⟩
  · rintro ⟨last, ⟨hne, fuel, hlast⟩, rfl⟩
    refine ⟨last.behind m.dropped, ?_, (dropOldest_grown (rebuild_appends hlast).2).symm⟩
    rw [hbehind, settles_behind]
    exact ⟨last, ⟨hne, fuel, hlast⟩, rfl⟩

/-- The second of two chunks goes on where the loop stopped after the first. -/
theorem second_chunk {m : CapturePipeline ρ} {fuel : Nat} (hb : b ≠ [])
    (hm : rebuildReadyFrames fuel (p.accept ⟨rate, a⟩) = .ready m) :
    m.dropOldest.Returns [⟨rate, b⟩] q ↔
      ∃ q', (p.accept ⟨rate, a ++ b⟩).Settles (.ready q') ∧ q = q'.dropOldest := by
  have hrate : m.dropOldest.sampleRateHz = rate :=
    (rebuild_appends hm).1.trans (p.accept_rate ⟨rate, a⟩)
  rw [returns_singleton, ingests_iff hb, accept_same_rate hrate, ← settles_dropOldest,
    accept_append]
  exact exists_congr fun q' => and_congr_left fun _ => (settles_extend hm b).symm

end

end CapturePipeline

theorem CapturePipeline.returns_append (p q : CapturePipeline ρ) (rate : UInt32)
    (a b : List ρ.Sample) (h : ∀ fuel, p.ingestAll fuel [⟨rate, a⟩, ⟨rate, b⟩] ≠ .panicked) :
    p.Returns [⟨rate, a⟩, ⟨rate, b⟩] q ↔ p.Returns [⟨rate, a ++ b⟩] q := by
  have hempty : ∀ (p : CapturePipeline ρ) fuel, p.ingest fuel ⟨rate, []⟩ = .ready p := fun p fuel => rfl
  by_cases ha : a = []
  · subst ha
    rw [List.nil_append, CapturePipeline.returns_cons]
    constructor
    · rintro ⟨m, ⟨fuel, hm⟩, hrest⟩
      rw [hempty] at hm
      exact Ingested.ready.inj hm ▸ hrest
    · exact fun hrest => ⟨p, ⟨0, hempty p 0⟩, hrest⟩
  by_cases hb : b = []
  · subst hb
    rw [List.append_nil, CapturePipeline.returns_cons, CapturePipeline.returns_singleton]
    constructor
    · rintro ⟨m, hm, hrest⟩
      obtain ⟨fuel, hlast⟩ := CapturePipeline.returns_singleton.mp hrest
      rw [hempty] at hlast
      exact Ingested.ready.inj hlast ▸ hm
    · exact fun hm => ⟨q, hm, CapturePipeline.returns_singleton.mpr ⟨0, hempty q 0⟩⟩
  rw [CapturePipeline.returns_singleton,
    CapturePipeline.ingests_iff (List.append_ne_nil_of_left_ne_nil ha b),
    CapturePipeline.returns_cons]
  constructor
  · rintro ⟨m, hm, hrest⟩
    obtain ⟨m, ⟨_, fuel, hfuel⟩, rfl⟩ := (CapturePipeline.ingests_iff ha).mp hm
    exact (CapturePipeline.second_chunk hb hfuel).mp hrest
  · rintro ⟨q', ⟨hne, fuel, hq'⟩, rfl⟩
    cases hr : CapturePipeline.rebuildReadyFrames fuel (p.accept ⟨rate, a⟩) with
    | ready m =>
      refine ⟨m.dropOldest, (CapturePipeline.ingests_iff ha).mpr ⟨m, ⟨by simp, fuel, hr⟩, rfl⟩, ?_⟩
      exact (CapturePipeline.second_chunk hb hr).mpr ⟨q', ⟨hne, fuel, hq'⟩, rfl⟩
    | panicked =>
      refine absurd ?_ (h fuel)
      simp only [CapturePipeline.ingestAll, CapturePipeline.ingest_nonempty ha, hr, Ingested.map]
    | unfinished =>
      rw [CapturePipeline.accept_append, CapturePipeline.unfinished_extend hr] at hq'
      cases hq'

/-- Whatever has been buffered, and whatever the arithmetic of the samples:
two chunks of one rate leave the pipeline as the two together do. Where the
first of them panics, nothing is left to compare. -/
theorem capture_chunking (p : CapturePipeline ρ) (rate : UInt32) (a b : List ρ.Sample)
    (h : ∀ fuel, p.ingestAll fuel [⟨rate, a⟩, ⟨rate, b⟩] ≠ .panicked) :
    (∀ q, p.Returns [⟨rate, a⟩, ⟨rate, b⟩] q ↔ p.Returns [⟨rate, a ++ b⟩] q) ∧
      ∀ q q', p.Returns [⟨rate, a⟩, ⟨rate, b⟩] q → p.Returns [⟨rate, a ++ b⟩] q' → q = q' := by
  have hsame := fun q => p.returns_append q rate a b h
  refine ⟨hsame, fun q q' hq hq' => ?_⟩
  obtain ⟨fuel, hfuel⟩ := (hsame q').mpr hq'
  have hboth := hq.outcome fuel (by simp [hfuel])
  exact Ingested.ready.inj (hboth.symm.trans hfuel)

theorem capture_chunking_threeSamples : ∃ q,
    (CapturePipeline.new binary32).Returns [⟨48000, [0]⟩, ⟨48000, [1, 0]⟩] q ∧
    (CapturePipeline.new binary32).Returns [⟨48000, [0] ++ [1, 0]⟩] q := by
  have hreturns : ∃ q, (CapturePipeline.new binary32).Returns [⟨48000, [0]⟩, ⟨48000, [1, 0]⟩] q :=
    ⟨_, 5, rfl⟩
  obtain ⟨q, hq⟩ := hreturns
  have hsound : ∀ fuel, (CapturePipeline.new binary32).ingestAll fuel
      [⟨48000, [0]⟩, ⟨48000, [1, 0]⟩] ≠ .panicked := by
    intro fuel hpanic
    have hready := hq.outcome fuel (by simp [hpanic])
    simp [hpanic] at hready
  exact ⟨q, hq, ((capture_chunking _ 48000 [0] [1, 0] hsound).1 q).mp hq⟩

end Voicers

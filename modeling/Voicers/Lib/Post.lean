import Mathlib.Data.List.Perm.Subperm
import Mathlib.Logic.Function.Basic
import Voicers.Lib.Trace

/-! Nodes that send each other messages, which are on their way until they are
delivered or lost, in any order. What a node goes through is a run of that node
alone, and what is delivered was sent before, no less often. -/

namespace Lib

variable {ν σ ι μ α ο : Type}

structure Envelope (ν μ : Type) where
  sender : ν
  receiver : ν
  content : μ

/-- What happens to a node; `how` is what the delivery depends on beside the message. -/
inductive NodeInput (ν ι μ α : Type)
  | own (input : ι)
  | receive (sender : ν) (content : μ) (how : α)

structure NodeOutput (ν μ ο : Type) where
  sent : List (ν × μ)
  done : ο

structure Post (ν σ μ : Type) where
  nodes : ν → σ
  inFlight : List (Envelope ν μ)

inductive PostInput (ν ι α : Type)
  | own (node : ν) (input : ι)
  | deliver (index : Nat) (how : α)
  | lose (index : Nat)

/-- Where something happened, and what; nothing happens where a message is lost. -/
abbrev Happening (ν ι μ α ο : Type) := Option (ν × NodeInput ν ι μ α × NodeOutput ν μ ο)

abbrev NodeTransition (ν σ ι μ α ο : Type) :=
  Transition σ (NodeInput ν ι μ α) (NodeOutput ν μ ο)

abbrev PostTransition (ν σ ι μ α ο : Type) :=
  Transition (Post ν σ μ) (PostInput ν ι α) (Happening ν ι μ α ο)

def envelopes (node : ν) (sent : List (ν × μ)) : List (Envelope ν μ) :=
  sent.map fun message => ⟨node, message.1, message.2⟩

section

variable [DecidableEq ν] (step : ν → σ → NodeInput ν ι μ α → Option (NodeOutput ν μ ο × σ))

/-- A node makes a step; `inFlight` is what stays on its way. -/
def Post.happen (p : Post ν σ μ) (inFlight : List (Envelope ν μ)) (node : ν)
    (input : NodeInput ν ι μ α) : Option (Happening ν ι μ α ο × Post ν σ μ) :=
  match step node (p.nodes node) input with
  | none => none
  | some (output, s) => some (some (node, input, output),
      { nodes := Function.update p.nodes node s
        inFlight := inFlight ++ envelopes node output.sent })

def postStep (p : Post ν σ μ) : PostInput ν ι α → Option (Happening ν ι μ α ο × Post ν σ μ)
  | .own node input => p.happen step p.inFlight node (.own input)
  | .deliver index how =>
    match p.inFlight[index]? with
    | none => none
    | some e =>
      p.happen step (p.inFlight.eraseIdx index) e.receiver (.receive e.sender e.content how)
  | .lose index =>
    if index < p.inFlight.length then some (none, { p with inFlight := p.inFlight.eraseIdx index })
    else none

end

/-- The message that a transition delivers. -/
def deliveredMessage (x : PostTransition ν σ ι μ α ο) : Option (Envelope ν μ) :=
  match x.output with
  | some (node, .receive sender content _, _) => some ⟨sender, node, content⟩
  | _ => none

def postedMessages (x : PostTransition ν σ ι μ α ο) : List (Envelope ν μ) :=
  match x.output with
  | some (node, _, output) => envelopes node output.sent
  | none => []

theorem mem_postedMessages {x : PostTransition ν σ ι μ α ο} {e : Envelope ν μ} :
    e ∈ postedMessages x ↔ ∃ input output, x.output = some (e.sender, input, output) ∧
      (e.receiver, e.content) ∈ output.sent := by
  obtain ⟨before, input, output, after⟩ := x
  cases output with
  | none => simp [postedMessages]
  | some happening =>
    obtain ⟨node, input, output⟩ := happening
    simp only [postedMessages, envelopes, List.mem_map]
    constructor
    · rintro ⟨message, hmem, rfl⟩
      exact ⟨input, output, rfl, hmem⟩
    · rintro ⟨_, _, heq, hmem⟩
      cases heq
      exact ⟨_, hmem, rfl⟩

section

variable [DecidableEq ν] {step : ν → σ → NodeInput ν ι μ α → Option (NodeOutput ν μ ο × σ)}
  {p q : Post ν σ μ} {x : PostTransition ν σ ι μ α ο} {tr : List (PostTransition ν σ ι μ α ο)}

/-- What happens at a node in a step of all, seen from that node. -/
def nodeTransition (node : ν) (x : PostTransition ν σ ι μ α ο) :
    Option (NodeTransition ν σ ι μ α ο) :=
  match x.output with
  | none => none
  | some (other, input, output) =>
    if other = node then some ⟨x.before.nodes node, input, output, x.after.nodes node⟩ else none

def nodeTrace (node : ν) (tr : List (PostTransition ν σ ι μ α ο)) :
    List (NodeTransition ν σ ι μ α ο) := tr.filterMap (nodeTransition node)

theorem happen_some {inFlight : List (Envelope ν μ)} {node : ν} {input : NodeInput ν ι μ α}
    {happening : Happening ν ι μ α ο}
    (h : p.happen step inFlight node input = some (happening, q)) :
    ∃ output s, step node (p.nodes node) input = some (output, s) ∧
      happening = some (node, input, output) ∧ q.nodes = Function.update p.nodes node s ∧
      q.inFlight = inFlight ++ envelopes node output.sent := by
  unfold Post.happen at h
  cases hstep : step node (p.nodes node) input with
  | none => simp [hstep] at h
  | some result =>
    simp only [hstep, Option.some.injEq, Prod.mk.injEq] at h
    obtain ⟨rfl, rfl⟩ := h
    exact ⟨result.1, result.2, rfl, rfl, rfl, rfl⟩

/-- A step loses a message or is a step of one node, of its own or on a message
that was on its way. -/
theorem postStep_cases (h : postStep step x.before x.input = some (x.output, x.after)) :
    (x.output = none ∧ x.after.nodes = x.before.nodes ∧ ∃ index,
      x.after.inFlight = x.before.inFlight.eraseIdx index) ∨
    ∃ node input output s, x.output = some (node, input, output) ∧
      step node (x.before.nodes node) input = some (output, s) ∧
      x.after.nodes = Function.update x.before.nodes node s ∧
      ((∃ own, input = .own own ∧
        x.after.inFlight = x.before.inFlight ++ envelopes node output.sent) ∨
      ∃ index sender content how, input = .receive sender content how ∧
        x.before.inFlight[index]? = some ⟨sender, node, content⟩ ∧
        x.after.inFlight = x.before.inFlight.eraseIdx index ++ envelopes node output.sent) := by
  obtain ⟨before, input, output, after⟩ := x
  cases input with
  | own node own =>
    obtain ⟨output, s, hstep, hout, hnodes, hflight⟩ := happen_some h
    exact .inr ⟨node, _, output, s, hout, hstep, hnodes, .inl ⟨own, rfl, hflight⟩⟩
  | deliver index how =>
    cases hmessage : before.inFlight[index]? with
    | none => simp [postStep, hmessage] at h
    | some e =>
      simp only [postStep, hmessage] at h
      obtain ⟨output, s, hstep, hout, hnodes, hflight⟩ := happen_some h
      exact .inr ⟨e.receiver, _, output, s, hout, hstep, hnodes,
        .inr ⟨index, e.sender, e.content, how, rfl, hmessage, hflight⟩⟩
  | lose index =>
    by_cases hlt : index < before.inFlight.length
    · simp only [postStep, if_pos hlt, Option.some.injEq, Prod.mk.injEq] at h
      obtain ⟨rfl, rfl⟩ := h
      exact .inl ⟨rfl, rfl, index, rfl⟩
    · simp [postStep, hlt] at h

/-- Where something happened, it was a step of that node. -/
theorem happened_step (h : postStep step x.before x.input = some (x.output, x.after)) {node : ν}
    {input : NodeInput ν ι μ α} {output : NodeOutput ν μ ο}
    (hout : x.output = some (node, input, output)) :
    step node (x.before.nodes node) input = some (output, x.after.nodes node) := by
  obtain ⟨hnone, -, -⟩ | ⟨node', input', output', s, hsome, hstep, hnodes, -⟩ := postStep_cases h
  · rw [hnone] at hout
    cases hout
  · rw [hsome] at hout
    cases hout
    rw [hnodes, Function.update_self]
    exact hstep

theorem nodeTransition_step (h : postStep step x.before x.input = some (x.output, x.after))
    (node : ν) :
    (nodeTransition node x = none ∧ x.after.nodes node = x.before.nodes node) ∨
    ∃ y, nodeTransition node x = some y ∧ y.before = x.before.nodes node ∧
      y.after = x.after.nodes node ∧ step node y.before y.input = some (y.output, y.after) := by
  obtain ⟨hnone, hnodes, -⟩ | ⟨other, input, output, s, hsome, -, hnodes, -⟩ := postStep_cases h
  · exact .inl ⟨by simp [nodeTransition, hnone], by rw [hnodes]⟩
  · by_cases hother : other = node
    · subst hother
      have hstep := happened_step h hsome
      exact .inr ⟨⟨_, input, output, _⟩, by simp [nodeTransition, hsome], rfl, rfl, hstep⟩
    · refine .inl ⟨by simp [nodeTransition, hsome, hother], ?_⟩
      rw [hnodes, Function.update_of_ne (Ne.symm hother)]

theorem nodeTransition_eq_some {node : ν} {y : NodeTransition ν σ ι μ α ο} :
    nodeTransition node x = some y ↔ x.output = some (node, y.input, y.output) ∧
      y.before = x.before.nodes node ∧ y.after = x.after.nodes node := by
  obtain ⟨before, input, output, after⟩ := x
  cases output with
  | none => simp [nodeTransition]
  | some happening =>
    obtain ⟨other, input', output'⟩ := happening
    obtain ⟨_, _, _, _⟩ := y
    by_cases hother : other = node
    · subst hother
      simp only [nodeTransition, if_true, Option.some.injEq, Transition.mk.injEq, Prod.mk.injEq]
      grind
    · simp [nodeTransition, hother]

theorem nodeTrace_trace (h : Trace (postStep step) p tr q) (node : ν) :
    Trace (step node) (p.nodes node) (nodeTrace node tr) (q.nodes node) := by
  refine h.snoc_induction (P := fun tr q =>
    Trace (step node) (p.nodes node) (nodeTrace node tr) (q.nodes node)) (.nil _) ?_
  intro tr x _ hstep ih
  have hsnoc : nodeTrace node (tr ++ [x]) =
      nodeTrace node tr ++ [x].filterMap (nodeTransition node) := List.filterMap_append
  rw [hsnoc]
  obtain ⟨hnone, hsame⟩ | ⟨y, hy, hbefore, hafter, hyStep⟩ := nodeTransition_step hstep node
  · rw [hsame]
    simpa [hnone] using ih
  · refine Trace.append_iff.mpr ⟨x.before.nodes node, ih, ?_⟩
    rw [← hbefore, ← hafter]
    simpa [hy] using Trace.cons hyStep (.nil _)

/-- No message is delivered more often than it was sent. -/
theorem deliveredMessage_subperm (h : Trace (postStep step) p tr q) :
    (tr.filterMap deliveredMessage ++ q.inFlight).Subperm
      (p.inFlight ++ tr.flatMap postedMessages) := by
  refine h.snoc_induction (P := fun tr q => (tr.filterMap deliveredMessage ++ q.inFlight).Subperm
    (p.inFlight ++ tr.flatMap postedMessages)) ?_ ?_
  · rw [List.filterMap_nil, List.nil_append, List.flatMap_nil, List.append_nil]
  · intro tr x _ hstep ih
    rw [List.filterMap_append, List.flatMap_append, List.flatMap_singleton,
      ← List.append_assoc p.inFlight]
    obtain ⟨hnone, -, index, hflight⟩ | ⟨node, input, output, s, hsome, -, -, hsent⟩ :=
      postStep_cases hstep
    · have hless := (List.eraseIdx_sublist x.before.inFlight index).append_left
        (tr.filterMap deliveredMessage)
      have hempty : [x].filterMap deliveredMessage = [] := by simp [deliveredMessage, hnone]
      rw [hflight, hempty, List.append_nil, postedMessages, hnone, List.append_nil]
      exact hless.subperm.trans ih
    · have hposted : postedMessages x = envelopes node output.sent := by rw [postedMessages, hsome]
      obtain ⟨own, rfl, hflight⟩ | ⟨index, sender, content, how, rfl, hget, hflight⟩ := hsent
      · have hempty : [x].filterMap deliveredMessage = [] := by simp [deliveredMessage, hsome]
        rw [hflight, hempty, List.append_nil, hposted, ← List.append_assoc]
        exact (List.subperm_append_right _).mpr ih
      · obtain ⟨hlt, hmem⟩ := List.getElem?_eq_some_iff.mp hget
        have hone : [x].filterMap deliveredMessage = [x.before.inFlight[index]] := by
          simp [deliveredMessage, hsome, hmem]
        have hperm := (List.getElem_cons_eraseIdx_perm hlt).append_left
          (tr.filterMap deliveredMessage)
        rw [hflight, hone, hposted, ← List.append_assoc, List.append_assoc _ [_],
          List.singleton_append]
        exact (List.subperm_append_right _).mpr (hperm.subperm.trans ih)

/-- What is delivered was sent before. -/
theorem receive_sent {nodes : ν → σ} {pre post : List (PostTransition ν σ ι μ α ο)}
    (h : Trace (postStep step) ⟨nodes, []⟩ (pre ++ x :: post) q) {node sender : ν} {content : μ}
    {how : α} {output : NodeOutput ν μ ο}
    (hout : x.output = some (node, .receive sender content how, output)) :
    ∃ before y between, pre = before ++ y :: between ∧ ∃ input output',
      y.output = some (sender, input, output') ∧ (node, content) ∈ output'.sent := by
  obtain ⟨hpre, hstep, -⟩ := h.split
  have hflying : ⟨sender, node, content⟩ ∈ x.before.inFlight := by
    obtain ⟨hnone, -, -⟩ | ⟨node', input, output', s, hsome, -, -, hsent⟩ := postStep_cases hstep
    · rw [hnone] at hout
      cases hout
    · rw [hsome] at hout
      cases hout
      obtain ⟨own, hown, -⟩ | ⟨index, _, _, _, hreceive, hget, -⟩ := hsent
      · cases hown
      · cases hreceive
        exact List.mem_of_getElem? hget
  have hposted := (deliveredMessage_subperm hpre).subset (List.mem_append_right _ hflying)
  obtain ⟨y, hy, hmem⟩ := List.mem_flatMap.mp (List.nil_append _ ▸ hposted)
  obtain ⟨before, between, hsplit⟩ := List.append_of_mem hy
  obtain ⟨input, output', hout', hsent⟩ := mem_postedMessages.mp hmem
  exact ⟨before, y, between, hsplit, input, output', hout', hsent⟩

end

end Lib

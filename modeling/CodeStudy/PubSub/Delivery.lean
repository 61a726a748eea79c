import CodeStudy.PubSub.Locking
import Mathlib.Algebra.Order.BigOperators.Group.List
import Mathlib.Algebra.Order.Ring.Nat

/-!
# What a publisher delivers

A publication that returns has put its value once into each channel it found whose subscriber did not refuse it and
took it in time, after the values of the publications that had returned before it began. It returns by its own steps.
-/

namespace CodeStudy.PubSub

variable {V : Type} {s s' : State V} {c ch : Nat} {p p' : Publication V} {sender : Sender V} {buffer : Nat}

/-! ### What a step leaves of a publication -/

/-- What was begun, put into a channel or returned stays so. -/
structure Publication.Goes (p p' : Publication V) : Prop where
  value : p'.value = p.value
  after : p'.after = p.after
  sent : ∀ ch, p.hasSent ch → p'.hasSent ch
  returned : p.stage = .returned → p'.stage = .returned

def Keeps (s s' : State V) : Prop :=
  ∀ c p, s.calls c = some p → ∃ p', s'.calls c = some p' ∧ p.Goes p'

theorem Publication.Goes.rfl : p.Goes p :=
  ⟨Eq.refl _, Eq.refl _, fun _ => id, id⟩

theorem Keeps.trans {t : State V} (h : Keeps s t) (h' : Keeps t s') : Keeps s s' := by
  intro c p hp
  obtain ⟨q, hq, hgoes⟩ := h c p hp
  obtain ⟨p', hp', hgoes'⟩ := h' c q hq
  refine ⟨p', hp', hgoes'.value.trans hgoes.value, hgoes'.after.trans hgoes.after, ?_, ?_⟩
  · intro ch hsent
    exact hgoes'.sent ch (hgoes.sent ch hsent)
  · intro hreturned
    exact hgoes'.returned (hgoes.returned hreturned)

theorem keeps_of_calls (h : s'.calls = s.calls) : Keeps s s' := by
  intro c p hp
  exact ⟨p, h ▸ hp, .rfl⟩

theorem keeps_setCall (hp : s.calls c = some p) (hgoes : p.Goes p') : Keeps s (s.setCall c p') := by
  intro other q hq
  by_cases hother : other = c
  · subst hother
    cases hp.symm.trans hq
    exact ⟨p', by simp [State.setCall], hgoes⟩
  · exact ⟨q, by simpa [State.setCall, hother] using hq, .rfl⟩

theorem keeps_publish (h : Locked s) (new : Publication V) :
    Keeps s { s with calls := Function.update s.calls s.begun (some new), begun := s.begun + 1 } := by
  intro other q hq
  have hother : other ≠ s.begun := by
    rintro rfl
    rw [h.call_eq_none (Nat.lt_irrefl _)] at hq
    cases hq
  exact ⟨q, by simpa [hother] using hq, .rfl⟩

theorem Moves.goes (h : Moves s p p') : p.Goes p' := by
  refine ⟨h.value, h.after, ?_, h.returned⟩
  intro ch hsent
  rw [h.sent]
  exact hsent

theorem Publication.goes_sent (hsender : p.senders ch = some .selecting) :
    p.Goes (p.setSender ch (.leaving .sent)) := by
  refine ⟨rfl, rfl, ?_, id⟩
  intro other hsent
  by_cases hother : other = ch
  · subst hother
    simp [Publication.hasSent, Publication.setSender, Sender.isSent]
  · simpa [Publication.hasSent, Publication.setSender, hother] using hsent

theorem calls_writerStep (hstep : writerStep s ch = some s') : s'.calls = s.calls := by
  obtain ⟨topic, -, rfl⟩ | ⟨sub, -, rfl⟩ | ⟨-, rfl⟩ | ⟨e, -, -, rfl⟩ | ⟨sub, more, channel, -, -, hclose⟩ |
    ⟨-, rfl⟩ := writerStep_cases hstep
  · rfl
  · rfl
  · rfl
  · rfl
  · rcases hclose with ⟨-, rfl⟩ | ⟨-, rfl⟩ <;> rfl
  · rfl

theorem keeps_step (h : Locked s) {a : Action V} (hstep : step s a = some s') : Keeps s s' := by
  obtain ⟨-, ⟨v, rfl⟩ | ⟨c, b, p, p', hp, hcall, rfl⟩ | ⟨c, ch, p, channel, hp, hsender, -, hput⟩ | ⟨writer, hlock, -⟩ |
    ⟨ch, hwrite⟩ | ⟨ch, channel, channel', -, -, rfl⟩⟩ := step_cases hstep
  · exact keeps_publish h _
  · exact keeps_setCall hp ((h.calls c p hp).callStep (h.found c p hp) h.distinct hcall).goes
  · rcases hput with ⟨-, rfl⟩ | ⟨-, channel', -, rfl⟩
    · exact keeps_of_calls rfl
    · exact (keeps_setCall hp (Publication.goes_sent hsender)).trans (keeps_of_calls rfl)
  · obtain ⟨rfl, -, -⟩ := lock_spec hlock
    exact keeps_of_calls rfl
  · exact keeps_of_calls (calls_writerStep hwrite)
  · exact keeps_of_calls rfl

/-! ### What was put into a channel -/

namespace State

/-- All that was ever put into a channel. -/
def log (s : State V) (ch : Nat) : List (Nat × V) := (s.channels ch).elim [] Channel.sent

theorem log_of_channel {channel : Channel (Nat × V)} (h : s.channels ch = some channel) : s.log ch = channel.sent := by
  rw [log, h]
  rfl

theorem log_setChannel {channel : Channel (Nat × V)} : (s.setChannel ch channel).log ch = channel.sent := by
  simp [log, setChannel]

theorem log_setChannel_of_ne {channel : Channel (Nat × V)} {other : Nat} (h : other ≠ ch) :
    (s.setChannel ch channel).log other = s.log other := by
  simp [log, setChannel, h]

end State

theorem log_setChannel_same {channel channel' : Channel (Nat × V)} (hchannel : s.channels ch = some channel)
    (hsent : channel'.sent = channel.sent) (other : Nat) : (s.setChannel ch channel').log other = s.log other := by
  by_cases hother : other = ch
  · subst hother
    rw [State.log_setChannel, State.log_of_channel hchannel, hsent]
  · exact State.log_setChannel_of_ne hother

theorem log_writerStep (h : Locked s) (hstep : writerStep s ch = some s') (other : Nat) :
    s'.log other = s.log other := by
  obtain ⟨topic, -, rfl⟩ | ⟨sub, -, rfl⟩ | ⟨-, rfl⟩ | ⟨e, -, -, rfl⟩ | ⟨sub, more, channel, -, hchannel, hclose⟩ |
    ⟨-, rfl⟩ := writerStep_cases hstep
  · by_cases hother : other = s.made
    · subst hother
      have hnone : s.channels s.made = none := by
        rw [← Option.not_isSome_iff_eq_none, ← h.made]
        exact Nat.lt_irrefl _
      simp [State.log, hnone, Channel.sent_make]
    · simp [State.log, hother]
  · rfl
  · rfl
  · rfl
  · rcases hclose with ⟨-, rfl⟩ | ⟨-, rfl⟩
    · rfl
    · exact log_setChannel_same hchannel (Channel.sent_close channel) other
  · rfl

/-- A step that puts no value into a channel. -/
structure Silent (s s' : State V) : Prop where
  log : ∀ ch, s'.log ch = s.log ch
  sent : ∀ c p' ch, s'.calls c = some p' → p'.hasSent ch → ∃ p, s.calls c = some p ∧ p.hasSent ch

/-- A step by which a publication puts its value into a channel. -/
structure Puts (c ch : Nat) (p : Publication V) (s s' : State V) : Prop where
  call : s.calls c = some p
  holds : p.holds = true
  unsent : p.hasSent ch = false
  log : s'.log ch = s.log ch ++ [(c, p.value)]
  others : ∀ other, other ≠ ch → s'.log other = s.log other
  now : ∀ p', s'.calls c = some p' → p'.hasSent ch
  sent : ∀ d p' other, s'.calls d = some p' → p'.hasSent other →
    (d = c ∧ other = ch) ∨ ∃ p, s.calls d = some p ∧ p.hasSent other

theorem silent_of_calls (hlog : ∀ ch, s'.log ch = s.log ch) (hcalls : s'.calls = s.calls) : Silent s s' := by
  refine ⟨hlog, ?_⟩
  intro c p' ch hp' hsent
  exact ⟨p', hcalls ▸ hp', hsent⟩

theorem silent_publish (v : V) (after : List Nat) : Silent s { s with
    calls := Function.update s.calls s.begun (some { value := v, after }), begun := s.begun + 1 } := by
  refine ⟨fun _ => rfl, ?_⟩
  intro c p' ch hp' hsent
  by_cases hc : c = s.begun
  · subst hc
    simp only [Function.update_self, Option.some.injEq] at hp'
    subst hp'
    simp [Publication.hasSent] at hsent
  · simp only [Function.update_of_ne hc] at hp'
    exact ⟨p', hp', hsent⟩

theorem silent_setCall (hp : s.calls c = some p) (hmoves : Moves s p p') : Silent s (s.setCall c p') := by
  refine ⟨fun _ => rfl, ?_⟩
  intro other q ch hq hsent
  by_cases hother : other = c
  · subst hother
    simp only [State.setCall, Function.update_self, Option.some.injEq] at hq
    subst hq
    exact ⟨p, hp, hmoves.sent ch ▸ hsent⟩
  · simp only [State.setCall, Function.update_of_ne hother] at hq
    exact ⟨q, hq, hsent⟩

theorem puts_setSender (h : Locked s) (hp : s.calls c = some p) (hsender : p.senders ch = some .selecting)
    {channel channel' : Channel (Nat × V)} (hchannel : s.channels ch = some channel)
    (hputs : Channel.Puts (c, p.value) channel channel') :
    Puts c ch p s ((s.setCall c (p.setSender ch (.leaving .sent))).setChannel ch channel') := by
  refine ⟨hp, (h.calls c p hp).holds_of_active hsender rfl, ?_, ?_, ?_, ?_, ?_⟩
  · simp [Publication.hasSent, hsender, Sender.isSent]
  · rw [State.log_setChannel, hputs.sent, State.log_of_channel hchannel]
  · intro other hother
    exact State.log_setChannel_of_ne hother
  · intro p' hp'
    simp only [State.setChannel, State.setCall, Function.update_self, Option.some.injEq] at hp'
    subst hp'
    simp [Publication.hasSent, Publication.setSender, Sender.isSent]
  · intro d p' other hp' hsent
    by_cases hd : d = c
    · subst hd
      simp only [State.setChannel, State.setCall, Function.update_self, Option.some.injEq] at hp'
      subst hp'
      by_cases hother : other = ch
      · exact .inl ⟨rfl, hother⟩
      · simp only [Publication.hasSent, Publication.setSender, Function.update_of_ne hother] at hsent
        exact .inr ⟨p, hp, hsent⟩
    · simp only [State.setChannel, State.setCall, Function.update_of_ne hd] at hp'
      exact .inr ⟨p', hp', hsent⟩

/-- A step puts at most one value into one channel. -/
theorem silent_or_puts (h : Locked s) {a : Action V} (hstep : step s a = some s') :
    Silent s s' ∨ ∃ c ch p, Puts c ch p s s' := by
  obtain ⟨-, ⟨v, rfl⟩ | ⟨c, b, p, p', hp, hcall, rfl⟩ | ⟨c, ch, p, channel, hp, hsender, hchannel, hput⟩ |
    ⟨writer, hlock, -⟩ | ⟨ch, hwrite⟩ | ⟨ch, channel, channel', hchannel, hreceive, rfl⟩⟩ := step_cases hstep
  · exact .inl (silent_publish v _)
  · exact .inl (silent_setCall hp ((h.calls c p hp).callStep (h.found c p hp) h.distinct hcall))
  · rcases hput with ⟨-, rfl⟩ | ⟨-, channel', hputs, rfl⟩
    · exact .inl (silent_of_calls (fun _ => rfl) rfl)
    · exact .inr ⟨c, ch, p, puts_setSender h hp hsender hchannel hputs⟩
  · obtain ⟨rfl, -, -⟩ := lock_spec hlock
    exact .inl (silent_of_calls (fun _ => rfl) rfl)
  · exact .inl (silent_of_calls (log_writerStep h hwrite) (calls_writerStep hwrite))
  · exact .inl (silent_of_calls (log_setChannel_same hchannel (Channel.receive_spec hreceive).2.1) rfl)

/-- A publication comes after those that have returned when it begins. -/
theorem begins_after {a : Action V} (hstep : step s a = some s') (hp : s'.calls c = some p') :
    (s.calls c).isSome ∨ ∀ d ∈ p'.after, s.hasReturned d = true := by
  have hset {c' : Nat} {p q : Publication V} (hc' : s.calls c' = some q)
      (hp : Function.update s.calls c' (some p) c = some p') : (s.calls c).isSome := by
    by_cases hc : c = c'
    · simp [hc, hc']
    · rw [Function.update_of_ne hc] at hp
      simp [hp]
  obtain ⟨-, ⟨v, rfl⟩ | ⟨c', b, q, q', hq, -, rfl⟩ | ⟨c', ch, q, channel, hq, -, -, hput⟩ | ⟨writer, hlock, -⟩ |
    ⟨ch, hwrite⟩ | ⟨ch, channel, channel', -, -, rfl⟩⟩ := step_cases hstep
  · by_cases hc : c = s.begun
    · subst hc
      simp only [Function.update_self, Option.some.injEq] at hp
      subst hp
      refine .inr ?_
      intro d hd
      exact (List.mem_filter.1 hd).2
    · simp only [Function.update_of_ne hc] at hp
      exact .inl (by simp [hp])
  · exact .inl (hset hq hp)
  · rcases hput with ⟨-, rfl⟩ | ⟨-, channel', -, rfl⟩
    · exact .inl (Option.isSome_iff_exists.2 ⟨p', hp⟩)
    · exact .inl (hset hq hp)
  · obtain ⟨rfl, -, -⟩ := lock_spec hlock
    exact .inl (Option.isSome_iff_exists.2 ⟨p', hp⟩)
  · rw [calls_writerStep hwrite] at hp
    exact .inl (Option.isSome_iff_exists.2 ⟨p', hp⟩)
  · exact .inl (Option.isSome_iff_exists.2 ⟨p', hp⟩)

theorem Keeps.hasReturned (h : Keeps s s') (hreturned : s.hasReturned c = true) : s'.hasReturned c = true := by
  obtain ⟨p, hp, hstage⟩ := (Option.any_eq_true _ _).1 hreturned
  obtain ⟨p', hp', hgoes⟩ := h c p hp
  exact (Option.any_eq_true _ _).2 ⟨p', hp', by simpa using hgoes.returned (by simpa using hstage)⟩

/-- What was put into the channels is what the publications have sent, in an order that respects theirs. -/
structure Logged (s : State V) : Prop where
  sender : ∀ ch e, e ∈ s.log ch → ∃ p, s.calls e.1 = some p ∧ p.value = e.2 ∧ p.hasSent ch = true
  sent : ∀ c p ch, s.calls c = some p → p.hasSent ch = true → (c, p.value) ∈ s.log ch
  once : ∀ ch, ((s.log ch).map Prod.fst).Nodup
  ordered : ∀ ch, (s.log ch).Pairwise fun earlier later => ∀ p, s.calls earlier.1 = some p → later.1 ∉ p.after
  after : ∀ c p, s.calls c = some p → ∀ d ∈ p.after, s.hasReturned d = true

namespace Logged

theorem new (buffer : Nat) : Logged (State.new buffer : State V) := by
  constructor <;> simp [State.new, State.log]

/-- What the channels hold so far is in line with the publications after the step. -/
theorem sender_keeps (h : Logged s) (hkeeps : Keeps s s') {e : Nat × V} (he : e ∈ s.log ch) :
    ∃ p, s'.calls e.1 = some p ∧ p.value = e.2 ∧ p.hasSent ch = true := by
  obtain ⟨p, hp, hvalue, hsent⟩ := h.sender ch e he
  obtain ⟨p', hp', hgoes⟩ := hkeeps e.1 p hp
  exact ⟨p', hp', hgoes.value.trans hvalue, hgoes.sent ch hsent⟩

theorem ordered_keeps (h : Logged s) (hkeeps : Keeps s s') (ch : Nat) :
    (s.log ch).Pairwise fun earlier later => ∀ p, s'.calls earlier.1 = some p → later.1 ∉ p.after := by
  refine (h.ordered ch).imp_of_mem ?_
  intro earlier later hearlier _ hbefore p' hp'
  obtain ⟨p, hp, -, -⟩ := h.sender ch earlier hearlier
  obtain ⟨p'', hp'', hgoes⟩ := hkeeps earlier.1 p hp
  cases hp''.symm.trans hp'
  rw [hgoes.after]
  exact hbefore p hp

theorem after_step (h : Logged s) (hkeeps : Keeps s s') {a : Action V} (hstep : step s a = some s') :
    ∀ c p, s'.calls c = some p → ∀ d ∈ p.after, s'.hasReturned d = true := by
  intro c p' hp' d hd
  apply hkeeps.hasReturned
  rcases begins_after hstep hp' with hsome | hbegins
  · obtain ⟨p, hp⟩ := Option.isSome_iff_exists.1 hsome
    obtain ⟨p'', hp'', hgoes⟩ := hkeeps c p hp
    cases hp''.symm.trans hp'
    rw [hgoes.after] at hd
    exact h.after c p hp d hd
  · exact hbegins d hd

theorem silent (h : Logged s) (hkeeps : Keeps s s') (hsilent : Silent s s') {a : Action V}
    (hstep : step s a = some s') : Logged s' := by
  refine ⟨?_, ?_, ?_, ?_, h.after_step hkeeps hstep⟩
  · intro ch e he
    rw [hsilent.log] at he
    exact h.sender_keeps hkeeps he
  · intro c p' ch hp' hsent
    obtain ⟨p, hp, hbefore⟩ := hsilent.sent c p' ch hp' hsent
    obtain ⟨p'', hp'', hgoes⟩ := hkeeps c p hp
    cases hp''.symm.trans hp'
    rw [hsilent.log, hgoes.value]
    exact h.sent c p ch hp hbefore
  · intro ch
    rw [hsilent.log]
    exact h.once ch
  · intro ch
    rw [hsilent.log]
    exact h.ordered_keeps hkeeps ch

/-- A publication that puts its value into a channel has not done so before, and no value in the channel is of one
that began after it had returned. -/
theorem puts (h : Logged s) (hkeeps : Keeps s s') (hputs : Puts c ch p s s') {a : Action V}
    (hstep : step s a = some s') : Logged s' := by
  have hnew : c ∉ (s.log ch).map Prod.fst := by
    intro hmem
    obtain ⟨e, he, rfl⟩ := List.mem_map.1 hmem
    obtain ⟨q, hq, -, hsent⟩ := h.sender ch e he
    cases hputs.call.symm.trans hq
    rw [hputs.unsent] at hsent
    cases hsent
  have hactive : s.hasReturned c = false := by
    have hholds := hputs.holds
    rw [State.hasReturned, hputs.call, Option.any_some, decide_eq_false_iff_not]
    intro hreturned
    simp [Publication.holds, hreturned] at hholds
  obtain ⟨p', hp', hgoes⟩ := hkeeps c p hputs.call
  refine ⟨?_, ?_, ?_, ?_, h.after_step hkeeps hstep⟩
  · intro other e he
    by_cases hother : other = ch
    · subst hother
      rw [hputs.log] at he
      rcases List.mem_append.1 he with hold | hlast
      · exact h.sender_keeps hkeeps hold
      · rw [List.mem_singleton.1 hlast]
        exact ⟨p', hp', hgoes.value, hputs.now p' hp'⟩
    · rw [hputs.others other hother] at he
      exact h.sender_keeps hkeeps he
  · intro d q' other hq' hsent
    rcases hputs.sent d q' other hq' hsent with ⟨rfl, rfl⟩ | ⟨q, hq, hbefore⟩
    · cases hp'.symm.trans hq'
      rw [hputs.log, hgoes.value]
      exact List.mem_append_right _ (List.mem_singleton_self _)
    · obtain ⟨q'', hq'', hgoes'⟩ := hkeeps d q hq
      cases hq''.symm.trans hq'
      rw [hgoes'.value]
      have hold := h.sent d q other hq hbefore
      by_cases hother : other = ch
      · subst hother
        rw [hputs.log]
        exact List.mem_append_left _ hold
      · rw [hputs.others other hother]
        exact hold
  · intro other
    by_cases hother : other = ch
    · subst hother
      rw [hputs.log, List.map_append]
      exact (h.once other).append (List.nodup_singleton _) (List.disjoint_singleton.2 hnew)
    · rw [hputs.others other hother]
      exact h.once other
  · intro other
    by_cases hother : other = ch
    · subst hother
      rw [hputs.log, List.pairwise_append]
      refine ⟨h.ordered_keeps hkeeps other, List.pairwise_singleton _ _, ?_⟩
      intro earlier hearlier later hlater q' hq'
      rw [List.mem_singleton.1 hlater]
      obtain ⟨q, hq, -, -⟩ := h.sender other earlier hearlier
      obtain ⟨q'', hq'', hgoes'⟩ := hkeeps earlier.1 q hq
      cases hq''.symm.trans hq'
      rw [hgoes'.after]
      intro hafter
      rw [h.after earlier.1 q hq c hafter] at hactive
      cases hactive
    · rw [hputs.others other hother]
      exact h.ordered_keeps hkeeps other

theorem step {a : Action V} (h : Logged s) (hlocked : Locked s) (hstep : step s a = some s') : Logged s' := by
  have hkeeps := keeps_step hlocked hstep
  rcases silent_or_puts hlocked hstep with hsilent | ⟨c, ch, p, hputs⟩
  · exact h.silent hkeeps hsilent hstep
  · exact h.puts hkeeps hputs hstep

end Logged

theorem Reached.logged (h : Reached buffer s) : Logged s := by
  obtain ⟨actions, hrun⟩ := h
  refine (runActions_invariant (fun s => Locked s ∧ Logged s) ?_ ⟨Locked.new buffer, Logged.new buffer⟩ hrun).2
  rintro s a t ⟨hlocked, hlogged⟩ hstep
  exact ⟨hlocked.step hstep, hlogged.step hlocked hstep⟩

/-! ### What a publication delivers -/

theorem Sender.Fits.found {found : List (Nat × Topic V)} {value : V} (h : sender.Fits found ch value) :
    ch ∈ found.map Prod.fst := by
  have hmem {topic : Topic V} (he : (ch, topic) ∈ found) : ch ∈ found.map Prod.fst := List.mem_map_of_mem he
  cases sender with
  | started topic => exact hmem h
  | selecting =>
    obtain ⟨topic, he, -⟩ := h
    exact hmem he
  | leaving outcome | done outcome =>
    cases outcome with
    | refused | sent | timedOut =>
      obtain ⟨topic, he, -⟩ := h
      exact hmem he

theorem Logged.mem_log_iff (h : Logged s) (hp : s.calls c = some p) :
    c ∈ (s.log ch).map Prod.fst ↔ p.hasSent ch = true := by
  constructor
  · intro hmem
    obtain ⟨e, he, rfl⟩ := List.mem_map.1 hmem
    obtain ⟨q, hq, -, hsent⟩ := h.sender ch e he
    cases hp.symm.trans hq
    exact hsent
  · intro hsent
    exact List.mem_map_of_mem (h.sent c p ch hp hsent)

/-- A sender that has ended has done what the topic of its subscriber says. -/
theorem Publication.Ok.refused_iff (h : p.Ok) {topic : Topic V} (hfound : (ch, topic) ∈ p.found) {outcome : Outcome}
    (hsender : p.senders ch = some (.done outcome)) : outcome = .refused ↔ topic p.value = false := by
  have hsame {topic' : Topic V} (hfound' : (ch, topic') ∈ p.found) : topic' = topic :=
    (Prod.mk.inj (List.inj_on_of_nodup_map h.distinct hfound' hfound rfl)).2
  have htopic {answer : Bool} (hfits : ∃ topic', (ch, topic') ∈ p.found ∧ topic' p.value = answer) :
      topic p.value = answer := by
    obtain ⟨topic', hfound', hanswer⟩ := hfits
    rw [← hsame hfound']
    exact hanswer
  cases outcome with
  | refused => simp [htopic (h.fits ch _ hsender)]
  | sent => simp [htopic (h.fits ch _ hsender)]
  | timedOut => simp [htopic (h.fits ch _ hsender)]

/-- When a publication has returned, each subscriber that it found has refused its value, has got it once, or its
sender took the timeout; no other subscriber has got anything of it. -/
theorem publish_delivers (h : Reached buffer s) (hp : s.calls c = some p) (hreturned : p.stage = .returned) :
    (∀ ch topic, (ch, topic) ∈ p.found → ∃ outcome, p.senders ch = some (.done outcome) ∧
      (outcome = .refused ↔ topic p.value = false) ∧
      ((s.log ch).map Prod.fst).count c = if outcome = .sent then 1 else 0) ∧
    (∀ ch, ch ∉ p.found.map Prod.fst → c ∉ (s.log ch).map Prod.fst) ∧
    ∀ ch v, (c, v) ∈ s.log ch → v = p.value := by
  have hlogged := h.logged
  have hok := h.locked.calls c p hp
  refine ⟨?_, ?_, ?_⟩
  · intro ch topic hfound
    have hdone := hok.finished hreturned ch (hok.all (.inr hreturned) _ hfound)
    obtain ⟨sender, hsender, hended⟩ := (Option.any_eq_true _ _).1 hdone
    cases sender with
    | started topic' => cases hended
    | selecting => cases hended
    | leaving outcome => cases hended
    | done outcome =>
      refine ⟨outcome, hsender, hok.refused_iff hfound hsender, ?_⟩
      have hiff : c ∈ (s.log ch).map Prod.fst ↔ p.hasSent ch = true := hlogged.mem_log_iff hp
      by_cases hsent : outcome = .sent
      · subst hsent
        rw [if_pos rfl]
        apply List.count_eq_one_of_mem (hlogged.once ch)
        exact hiff.2 (by simp [Publication.hasSent, hsender, Sender.isSent])
      · rw [if_neg hsent]
        apply List.count_eq_zero.2
        rw [hiff]
        cases outcome with
        | sent => exact absurd rfl hsent
        | refused | timedOut => simp [Publication.hasSent, hsender, Sender.isSent]
  · intro ch hout hmem
    obtain ⟨sender, hsender, -⟩ := (Option.any_eq_true _ _).1 ((hlogged.mem_log_iff hp).1 hmem)
    exact hout (hok.fits ch sender hsender).found
  · intro ch v hmem
    obtain ⟨q, hq, hvalue, -⟩ := hlogged.sender ch _ hmem
    cases hp.symm.trans hq
    exact hvalue.symm

/-- The second of two subscribers wants even values only, and 7 is published. -/
def seven : List (Action Nat) :=
  [.subscribe, .write 0, .write 0, .subscribeTopic fun v => v % 2 = 0, .write 0, .write 0, .publish 7, .call 0 .rLock,
    .call 0 (.spawn 1), .call 0 (.spawn 0), .call 0 .ranged, .call 0 (.topic 0), .call 0 (.topic 1), .call 0 (.done 1),
    .send 0 0, .call 0 (.done 0), .call 0 .wait]

/-- Then 8 is published, which the first one gets after it has received 7. -/
def eight : List (Action Nat) :=
  [.call 1 .rLock, .call 1 (.spawn 0), .call 1 (.spawn 1), .call 1 .ranged, .call 1 (.topic 0), .call 1 (.topic 1),
    .send 1 1, .receive 0, .send 1 0, .call 1 (.done 0), .call 1 (.done 1), .call 1 .wait]

theorem publish_delivers_seven : ∃ (s : State Nat) (p : Publication Nat),
    runActions step (State.new 1) seven = some s ∧ s.calls 0 = some p ∧ p.found.map Prod.fst = [0, 1] ∧
      ∀ ch topic, (ch, topic) ∈ p.found → ∃ outcome, p.senders ch = some (.done outcome) ∧
        (outcome = .refused ↔ topic p.value = false) ∧
        ((s.log ch).map Prod.fst).count 0 = if outcome = .sent then 1 else 0 := by
  have hends : ((runActions step (State.new 1) seven).bind fun s => (s.calls 0).map fun p =>
      (p.stage, p.found.map Prod.fst)) = some (.returned, [0, 1]) := by decide
  obtain ⟨s, hrun, hs⟩ := Option.bind_eq_some_iff.1 hends
  obtain ⟨p, hp, heq⟩ := Option.map_eq_some_iff.1 hs
  obtain ⟨hreturned, hfound⟩ := Prod.mk.inj heq
  exact ⟨s, p, hrun, hp, hfound, (publish_delivers ⟨seven, hrun⟩ hp hreturned).1⟩

/-! ### In which order -/

def Sized (buffer : Nat) (s : State V) : Prop :=
  s.buffer = buffer ∧ ∀ ch channel, s.channels ch = some channel → channel.capacity = buffer

namespace Sized

theorem setChannel (h : Sized buffer s) {channel channel' : Channel (Nat × V)} (hchannel : s.channels ch = some channel)
    (hcapacity : channel'.capacity = channel.capacity) : Sized buffer (s.setChannel ch channel') := by
  refine ⟨h.1, ?_⟩
  intro other new hnew
  by_cases hother : other = ch
  · subst hother
    simp only [State.setChannel, Function.update_self, Option.some.injEq] at hnew
    rw [← hnew, hcapacity]
    exact h.2 other channel hchannel
  · simp only [State.setChannel, Function.update_of_ne hother] at hnew
    exact h.2 other new hnew

theorem writerStep (h : Sized buffer s) (hstep : writerStep s ch = some s') : Sized buffer s' := by
  obtain ⟨topic, -, rfl⟩ | ⟨sub, -, rfl⟩ | ⟨-, rfl⟩ | ⟨e, -, -, rfl⟩ | ⟨sub, more, channel, -, hchannel, hclose⟩ |
    ⟨-, rfl⟩ := writerStep_cases hstep
  · refine ⟨h.1, ?_⟩
    intro other channel hchannel
    by_cases hother : other = s.made
    · simp only [hother, Function.update_self, Option.some.injEq] at hchannel
      rw [← hchannel]
      exact h.1
    · simp only [Function.update_of_ne hother] at hchannel
      exact h.2 other channel hchannel
  · exact h
  · exact h
  · exact h
  · rcases hclose with ⟨-, rfl⟩ | ⟨-, rfl⟩
    · exact h
    · have hset : Sized buffer (s.setChannel sub channel.close) := h.setChannel hchannel rfl
      exact hset
  · exact h

theorem step {a : Action V} (h : Sized buffer s) (hstep : step s a = some s') : Sized buffer s' := by
  apply step_channels h hstep
  · intro s calls begun panicked h
    exact h
  · intro s ch channel channel' h hchannel _ hcapacity
    exact h.setChannel hchannel hcapacity
  · intro s s' writer h hlock
    obtain ⟨rfl, -, -⟩ := lock_spec hlock
    exact h
  · intro s s' ch h hwrite
    exact h.writerStep hwrite

end Sized

theorem Reached.sized (h : Reached buffer s) : Sized buffer s := by
  obtain ⟨actions, hrun⟩ := h
  refine runActions_invariant (Sized buffer) Sized.step ⟨rfl, ?_⟩ hrun
  intro ch channel hchannel
  cases hchannel

/-- A publication that begins comes after those that have returned, in every state from then on. -/
theorem after_of_run {u : State V} (hu : Locked u) {v : V} {rest : List (Action V)}
    (hrest : runActions step u (.publish v :: rest) = some s) :
    ∃ p, s.calls u.begun = some p ∧ ∀ c, u.hasReturned c = true → c ∈ p.after := by
  obtain ⟨t, hpublish, hrun⟩ := Option.bind_eq_some_iff.1 hrest
  have hinv := runActions_invariant (fun s => Locked s ∧ Keeps t s)
    (fun h hstep => ⟨h.1.step hstep, h.2.trans (keeps_step h.1 hstep)⟩)
    ⟨hu.step hpublish, keeps_of_calls rfl⟩ hrun
  unfold step at hpublish
  split_ifs at hpublish
  cases hpublish
  obtain ⟨p, hp, hgoes⟩ := hinv.2 u.begun _ (Function.update_self _ _ _)
  refine ⟨p, hp, ?_⟩
  intro c hreturned
  rw [hgoes.after]
  refine List.mem_filter.2 ⟨List.mem_range.2 ((hu.begun c).2 ?_), hreturned⟩
  obtain ⟨q, hq, -⟩ := (Option.any_eq_true _ _).1 hreturned
  simp [hq]

/-- A subscriber receives what was put into its channel, in order; the channel never holds more than its buffer has
room for, a publication puts its value there once at most, and after the values of those that had returned before it
began. -/
theorem received_in_order {actions : List (Action V)} (hrun : runActions step (State.new buffer) actions = some s)
    {channel : Channel (Nat × V)} (hchannel : s.channels ch = some channel) :
    channel.received <+: channel.sent ∧ channel.buffer.length ≤ buffer ∧ (channel.sent.map Prod.fst).Nodup ∧
      (∀ e ∈ channel.sent, ∃ p topic, s.calls e.1 = some p ∧ p.value = e.2 ∧ (ch, topic) ∈ p.found ∧
        topic e.2 = true) ∧
      ∀ before v rest u, actions = before ++ .publish v :: rest →
        runActions step (State.new buffer) before = some u → ∀ c, u.hasReturned c = true →
          channel.sent.Pairwise fun earlier later => ¬ (earlier.1 = u.begun ∧ later.1 = c) := by
  have hreached : Reached buffer s := ⟨actions, hrun⟩
  have hlogged := hreached.logged
  have hlog : s.log ch = channel.sent := State.log_of_channel hchannel
  have hcapacity := hreached.sized.2 ch channel hchannel
  rw [← hlog]
  refine ⟨?_, hcapacity ▸ channel.bounded, hlogged.once ch, ?_, ?_⟩
  · rw [hlog]
    exact channel.received_prefix_sent.1
  · intro e he
    obtain ⟨p, hp, hvalue, hsent⟩ := hlogged.sender ch e he
    obtain ⟨sender, hsender, hissent⟩ := (Option.any_eq_true _ _).1 hsent
    obtain ⟨topic, hfound, hpasses⟩ := (hreached.locked.calls e.1 p hp).passes_of_sent hsender hissent
    exact ⟨p, topic, hp, hvalue, hfound, hvalue ▸ hpasses⟩
  · rintro before v rest u rfl hbefore c hreturned
    rw [runActions_append hbefore] at hrun
    have hu : Locked u := Reached.locked ⟨before, hbefore⟩
    obtain ⟨p, hp, hafter⟩ := after_of_run hu hrun
    apply (hlogged.ordered ch).imp
    rintro earlier later hordered ⟨hfirst, rfl⟩
    exact hordered p (hfirst ▸ hp) (hafter later.1 hreturned)

theorem received_in_order_eight : ∃ (u s : State Nat) (channel : Channel (Nat × Nat)),
    runActions step (State.new 1) seven = some u ∧ runActions step (State.new 1) (seven ++ .publish 8 :: eight) = some s ∧
      s.channels 0 = some channel ∧ channel.sent = [(0, 7), (1, 8)] ∧ channel.received <+: channel.sent ∧
      channel.sent.Pairwise fun earlier later => ¬ (earlier.1 = u.begun ∧ later.1 = 0) := by
  have hends : ((runActions step (State.new 1) (seven ++ .publish 8 :: eight)).bind fun s => (s.channels 0).map fun channel =>
      channel.sent) = some [(0, 7), (1, 8)] := by decide
  have hreturned : ((runActions step (State.new 1) seven).map fun u => u.hasReturned 0) = some true := by decide
  obtain ⟨s, hrun, hs⟩ := Option.bind_eq_some_iff.1 hends
  obtain ⟨channel, hchannel, hsent⟩ := Option.map_eq_some_iff.1 hs
  obtain ⟨u, hbefore, hu⟩ := Option.map_eq_some_iff.1 hreturned
  obtain ⟨hreceived, -, -, -, hordered⟩ := received_in_order hrun hchannel
  exact ⟨u, s, channel, hbefore, hrun, hchannel, hsent, hreceived, hordered seven 8 eight u rfl hbefore 0 hu⟩

/-! ### It returns -/

def Sender.stepsLeft : Sender V → Nat
  | .started _ => 3
  | .selecting => 2
  | .leaving _ => 1
  | .done _ => 0

def Stage.stepsLeft : Stage → Nat
  | .ranging => 2
  | .waiting => 1
  | .locking | .returned => 0

/-- The steps that are left for one subscriber. -/
def Publication.stepsFor (p : Publication V) (ch : Nat) : Nat := (p.senders ch).elim 4 Sender.stepsLeft

/-- How many steps a publication that holds the lock has still to take. -/
def Publication.stepsLeft (p : Publication V) : Nat :=
  (p.found.map fun e => p.stepsFor e.1).sum + p.stage.stepsLeft

theorem Publication.stepsLeft_le (p : Publication V) : p.stepsLeft ≤ 4 * p.found.length + 2 := by
  have hsum : (p.found.map fun e => p.stepsFor e.1).sum ≤ (p.found.map fun e => p.stepsFor e.1).length • 4 := by
    apply List.sum_le_card_nsmul
    intro n hn
    obtain ⟨e, -, rfl⟩ := List.mem_map.1 hn
    unfold Publication.stepsFor
    cases p.senders e.1 with
    | none => exact Nat.le_refl _
    | some sender => cases sender <;> simp [Sender.stepsLeft]
  have hstage : p.stage.stepsLeft ≤ 2 := by cases p.stage <;> simp [Stage.stepsLeft]
  rw [List.length_map, Nat.nsmul_eq_mul, Nat.mul_comm] at hsum
  exact Nat.add_le_add hsum hstage

/-- One sender went on. -/
theorem stepsLeft_setSender {next : Sender V} (hfound : ch ∈ p.found.map Prod.fst)
    (hless : next.stepsLeft < p.stepsFor ch) : (p.setSender ch next).stepsLeft < p.stepsLeft := by
  have hself : (p.setSender ch next).stepsFor ch = next.stepsLeft := by
    simp [Publication.stepsFor, Publication.setSender]
  have hsum : (p.found.map fun e => (p.setSender ch next).stepsFor e.1).sum <
      (p.found.map fun e => p.stepsFor e.1).sum := by
    apply List.sum_lt_sum
    · intro e _
      by_cases hch : e.1 = ch
      · rw [hch, hself]
        exact hless.le
      · exact Nat.le_of_eq (by simp [Publication.stepsFor, Publication.setSender, hch])
    · obtain ⟨e, he, rfl⟩ := List.mem_map.1 hfound
      exact ⟨e, he, hself ▸ hless⟩
  exact Nat.add_lt_add_right hsum _

/-- A publication that holds the lock can take a step by itself, and comes nearer to its end by it. -/
theorem Publication.Ok.exists_step (h : p.Ok) (hfound : p.found = s.subscribers) (hholds : p.holds = true) :
    ∃ b p', PubSub.callStep s p b = some p' ∧ p'.stepsLeft < p.stepsLeft ∧
      (p'.holds = true ∨ p'.stage = .returned) := by
  cases hstage : p.stage with
  | locking => simp [Publication.holds, hstage] at hholds
  | returned => simp [Publication.holds, hstage] at hholds
  | ranging =>
    by_cases hall : ∀ e ∈ s.subscribers, e.1 ∈ p.spawned
    · refine ⟨.ranged, { p with stage := .waiting }, ?_, ?_, .inl rfl⟩
      · simp only [PubSub.callStep]
        rw [if_pos ⟨hstage, hall⟩]
      · simp [Publication.stepsLeft, hstage, Stage.stepsLeft, Publication.stepsFor]
    · simp only [not_forall] at hall
      obtain ⟨e, he, hnew⟩ := hall
      have hsome : (s.subscribers.find? fun e' => e'.1 = e.1).isSome :=
        List.find?_isSome.2 ⟨e, he, by simp⟩
      obtain ⟨e', he'⟩ := Option.isSome_iff_exists.1 hsome
      have hfresh : p.senders e.1 = none := by
        rw [← Option.not_isSome_iff_eq_none, ← h.spawned]
        exact hnew
      have hless : (Sender.started e'.2).stepsLeft < p.stepsFor e.1 := by
        simp [Publication.stepsFor, hfresh, Sender.stepsLeft]
      refine ⟨.spawn e.1, { p.setSender e.1 (.started e'.2) with spawned := p.spawned ++ [e.1] }, ?_, ?_, .inl ?_⟩
      · simp only [PubSub.callStep]
        rw [if_pos ⟨hstage, hnew⟩, he']
        rfl
      · exact stepsLeft_setSender (hfound ▸ List.mem_map_of_mem he) hless
      · simp [Publication.holds, Publication.setSender, hstage]
  | waiting =>
    by_cases hdone : ∀ ch ∈ p.spawned, (p.senders ch).any Sender.isDone
    · refine ⟨.wait, { p with stage := .returned }, ?_, ?_, .inr rfl⟩
      · simp only [PubSub.callStep]
        rw [if_pos ⟨hstage, hdone⟩]
      · simp [Publication.stepsLeft, hstage, Stage.stepsLeft, Publication.stepsFor]
    · simp only [not_forall] at hdone
      obtain ⟨ch, hch, hactive⟩ := hdone
      obtain ⟨sender, hsender⟩ := Option.isSome_iff_exists.1 ((h.spawned ch).1 hch)
      have hmem := (h.fits ch sender hsender).found
      have hgoes {b : CallAction} {next : Sender V} (hcall : PubSub.callStep s p b = some (p.setSender ch next))
          (hnext : next.stepsLeft < sender.stepsLeft) : ∃ b p', PubSub.callStep s p b = some p' ∧
            p'.stepsLeft < p.stepsLeft ∧ (p'.holds = true ∨ p'.stage = .returned) :=
        ⟨b, p.setSender ch next, hcall,
          stepsLeft_setSender hmem (by simpa [Publication.stepsFor, hsender] using hnext), .inl hholds⟩
      cases sender with
      | started topic =>
        have hcall : PubSub.callStep s p (.topic ch) =
            some (p.setSender ch (if topic p.value then .selecting else .leaving .refused)) := by
          simp only [PubSub.callStep, hsender]
        apply hgoes hcall
        split <;> simp [Sender.stepsLeft]
      | selecting =>
        have hcall : PubSub.callStep s p (.timeout ch) = some (p.setSender ch (.leaving .timedOut)) := by
          simp only [PubSub.callStep, hsender]
        exact hgoes hcall (by simp [Sender.stepsLeft])
      | leaving outcome =>
        have hcall : PubSub.callStep s p (.done ch) = some (p.setSender ch (.done outcome)) := by
          simp only [PubSub.callStep, hsender]
        exact hgoes hcall (by simp [Sender.stepsLeft])
      | done outcome => simp [hsender, Sender.isDone] at hactive

theorem returns_of_holds (h : Locked s) (hpanicked : s.panicked = none) (hp : s.calls c = some p)
    (hholds : p.holds = true) : ∃ steps : List CallAction, steps.length ≤ p.stepsLeft ∧
      ∃ s', runActions step s (steps.map (.call c)) = some s' ∧ s'.hasReturned c = true := by
  induction hn : p.stepsLeft using Nat.strong_induction_on generalizing s p with
  | _ n ih =>
    obtain ⟨b, p', hcall, hless, hnext⟩ := (h.calls c p hp).exists_step (h.found c p hp hholds) hholds
    have hstep : step s (.call c b) = some (s.setCall c p') := by
      simp [step, hpanicked, hp, hcall]
    have hp' : (s.setCall c p').calls c = some p' := Function.update_self _ _ _
    rcases hnext with hgoes | hreturned
    · obtain ⟨steps, hlength, s', hrun, hends⟩ := ih p'.stepsLeft (hn ▸ hless) (h.step hstep) hpanicked hp' hgoes rfl
      refine ⟨b :: steps, ?_, s', ?_, hends⟩
      · rw [List.length_cons]
        omega
      · simp [runActions, hstep, hrun]
    · refine ⟨[b], ?_, s.setCall c p', by simp [runActions, hstep], ?_⟩
      · rw [List.length_singleton]
        omega
      · simp [State.hasReturned, hp', hreturned]

/-- A publication that holds the lock can always return: it needs nobody else for it, and at most four steps for each
subscriber it found and two more. -/
theorem publish_returns (h : Reached buffer s) (hpanicked : s.panicked = none) (hp : s.calls c = some p)
    (hholds : p.holds = true) : ∃ steps : List CallAction, steps.length ≤ 4 * p.found.length + 2 ∧
      ∃ s', runActions step s (steps.map (.call c)) = some s' ∧ s'.hasReturned c = true := by
  obtain ⟨steps, hlength, hruns⟩ := returns_of_holds h.locked hpanicked hp hholds
  exact ⟨steps, hlength.trans p.stepsLeft_le, hruns⟩

/-- Nobody receives the second value. -/
theorem publish_returns_full : ∃ (s : State Nat) (p : Publication Nat),
    runActions step (State.new 1) (seven ++ .publish 8 :: eight.take 7) = some s ∧ s.calls 1 = some p ∧
      p.found.length = 2 ∧ ∃ steps : List CallAction, steps.length ≤ 4 * p.found.length + 2 ∧
        ∃ s', runActions step s (steps.map (.call 1)) = some s' ∧ s'.hasReturned 1 = true := by
  have hends : ((runActions step (State.new 1) (seven ++ .publish 8 :: eight.take 7)).bind fun s =>
      (s.calls 1).map fun p => (s.panicked, p.holds, p.found.length)) = some (none, true, 2) := by decide
  obtain ⟨s, hrun, hs⟩ := Option.bind_eq_some_iff.1 hends
  obtain ⟨p, hp, heq⟩ := Option.map_eq_some_iff.1 hs
  obtain ⟨hpanicked, hrest⟩ := Prod.mk.inj heq
  obtain ⟨hholds, hlength⟩ := Prod.mk.inj hrest
  exact ⟨s, p, hrun, hp, hlength, publish_returns ⟨_, hrun⟩ hpanicked hp hholds⟩

end CodeStudy.PubSub

import CodeStudy.PubSub.Publisher
import Mathlib.Data.List.Nodup

/-!
# The lock of a publisher

While a publication holds the lock nobody changes the map, so that no channel is closed under its senders. Only an
`Evict` of a channel that is not in the map closes one that is closed.
-/

namespace CodeStudy.PubSub

variable {V : Type} {s s' : State V} {c ch : Nat} {p p' : Publication V} {sender : Sender V}

/-! ### One step -/

/-- The lock is taken for writing from a state in which nobody has it. -/
theorem lock_spec {writer : Writer V} (h : lock s writer = some s') :
    s' = { s with writer := some writer } ∧ s.writer = none ∧ ∀ c < s.begun, s.reading c = false := by
  unfold lock at h
  split_ifs at h with hfree
  exact ⟨(Option.some.inj h).symm, Option.isNone_iff_eq_none.1 hfree.1, hfree.2⟩

/-- What a step of the one who holds the lock for writing does. -/
theorem writerStep_cases (h : writerStep s ch = some s') :
    (∃ topic, s.writer = some (.subscribe topic) ∧ s' = { s with
        subscribers := s.subscribers ++ [(s.made, topic)]
        channels := Function.update s.channels s.made (some (.make s.buffer))
        made := s.made + 1
        writer := some .unlocking }) ∨
    (∃ sub, s.writer = some (.evict sub) ∧ s' = { s.delete sub with writer := some (.closing sub false) }) ∨
    (s.writer = some .close ∧ s' = { s with writer := some .unlocking }) ∨
    (∃ e ∈ s.subscribers, s.writer = some .close ∧ s' = { s.delete e.1 with writer := some (.closing e.1 true) }) ∨
    (∃ sub more channel, s.writer = some (.closing sub more) ∧ s.channels sub = some channel ∧
      ((channel.closed = true ∧ s' = { s with panicked := some .closeOfClosed }) ∨
        channel.closed = false ∧
          s' = { s.setChannel sub channel.close with writer := some (if more then .close else .unlocking) })) ∨
    (s.writer = some .unlocking ∧ s' = { s with writer := none }) := by
  unfold writerStep at h
  split at h
  · rename_i topic hwriter
    exact .inl ⟨topic, hwriter, (Option.some.inj h).symm⟩
  · rename_i sub hwriter
    exact .inr (.inl ⟨sub, hwriter, (Option.some.inj h).symm⟩)
  · rename_i hwriter
    split_ifs at h with hempty hfound
    · exact .inr (.inr (.inl ⟨hwriter, (Option.some.inj h).symm⟩))
    · obtain ⟨e, he⟩ := Option.isSome_iff_exists.1 hfound
      have hkey : e.1 = ch := by simpa using List.find?_some he
      subst hkey
      exact .inr (.inr (.inr (.inl ⟨e, List.mem_of_find?_eq_some he, hwriter, (Option.some.inj h).symm⟩)))
  · rename_i sub more hwriter
    obtain ⟨channel, hchannel, rfl⟩ := Option.map_eq_some_iff.1 h
    refine .inr (.inr (.inr (.inr (.inl ⟨sub, more, channel, hwriter, hchannel, ?_⟩))))
    by_cases hclosed : channel.closed = true
    · exact .inl ⟨hclosed, if_pos hclosed⟩
    · exact .inr ⟨Bool.eq_false_iff.2 hclosed, if_neg hclosed⟩
  · rename_i hwriter
    exact .inr (.inr (.inr (.inr (.inr ⟨hwriter, (Option.some.inj h).symm⟩))))
  · cases h

/-- What a step does; a writer's step is told apart by what it was to do. -/
theorem step_cases {a : Action V} (h : step s a = some s') : s.panicked = none ∧
    ((∃ v, s' = { s with
        calls := Function.update s.calls s.begun
          (some { value := v, after := (List.range s.begun).filter s.hasReturned })
        begun := s.begun + 1 }) ∨
    (∃ c b p p', s.calls c = some p ∧ callStep s p b = some p' ∧ s' = s.setCall c p') ∨
    (∃ c ch p channel, s.calls c = some p ∧ p.senders ch = some .selecting ∧ s.channels ch = some channel ∧
      ((channel.closed = true ∧ s' = { s with panicked := some .sendOnClosed }) ∨
        channel.closed = false ∧ ∃ channel', Channel.Puts (c, p.value) channel channel' ∧
          s' = (s.setCall c (p.setSender ch (.leaving .sent))).setChannel ch channel')) ∨
    (∃ writer, lock s writer = some s' ∧ ((∃ topic, writer = .subscribe topic) ∨
      (∃ ch, a = .evict ch ∧ writer = .evict ch ∧ ch < s.made) ∨ writer = .close)) ∨
    (∃ ch, writerStep s ch = some s') ∨
    ∃ ch channel channel', s.channels ch = some channel ∧ channel.receive = some channel' ∧
      s' = s.setChannel ch channel') := by
  unfold step at h
  split_ifs at h with hpanicked
  refine ⟨Option.not_isSome_iff_eq_none.1 hpanicked, ?_⟩
  have hput {c ch : Nat} {how : Channel (Nat × V) → Nat × V → Option (Channel (Nat × V))}
      (hhow : ∀ {channel v channel'}, how channel v = some channel' → Channel.Puts v channel channel')
      (h : put s c ch how = some s') : ∃ c ch p channel, s.calls c = some p ∧ p.senders ch = some .selecting ∧
        s.channels ch = some channel ∧ ((channel.closed = true ∧ s' = { s with panicked := some .sendOnClosed }) ∨
          channel.closed = false ∧ ∃ channel', Channel.Puts (c, p.value) channel channel' ∧
            s' = (s.setCall c (p.setSender ch (.leaving .sent))).setChannel ch channel') := by
    obtain ⟨p, hp, h⟩ := Option.bind_eq_some_iff.1 h
    split at h
    · rename_i hselecting
      obtain ⟨channel, hchannel, h⟩ := Option.bind_eq_some_iff.1 h
      refine ⟨c, ch, p, channel, hp, hselecting, hchannel, ?_⟩
      split_ifs at h with hclosed
      · exact .inl ⟨hclosed, (Option.some.inj h).symm⟩
      · obtain ⟨channel', hchannel', heq⟩ := Option.map_eq_some_iff.1 h
        exact .inr ⟨Bool.eq_false_iff.2 hclosed, channel', hhow hchannel', heq.symm⟩
    · cases h
  cases a with
  | publish v => exact .inl ⟨v, (Option.some.inj h).symm⟩
  | call c b =>
    obtain ⟨p, hp, h⟩ := Option.bind_eq_some_iff.1 h
    obtain ⟨p', hstep, heq⟩ := Option.map_eq_some_iff.1 h
    exact .inr (.inl ⟨c, b, p, p', hp, hstep, heq.symm⟩)
  | send c ch => exact .inr (.inr (.inl (hput Channel.puts_send h)))
  | handOver c ch => exact .inr (.inr (.inl (hput Channel.puts_handOver h)))
  | subscribeTopic topic => exact .inr (.inr (.inr (.inl ⟨_, h, .inl ⟨topic, rfl⟩⟩)))
  | evict ch =>
    simp only at h
    split_ifs at h with hmade
    exact .inr (.inr (.inr (.inl ⟨_, h, .inr (.inl ⟨ch, rfl, rfl, hmade⟩)⟩)))
  | close => exact .inr (.inr (.inr (.inl ⟨_, h, .inr (.inr rfl)⟩)))
  | write ch => exact .inr (.inr (.inr (.inr (.inl ⟨ch, h⟩))))
  | receive ch =>
    obtain ⟨channel, hchannel, h⟩ := Option.bind_eq_some_iff.1 h
    obtain ⟨channel', hreceive, heq⟩ := Option.map_eq_some_iff.1 h
    exact .inr (.inr (.inr (.inr (.inr ⟨ch, channel, channel', hchannel, hreceive, heq.symm⟩))))

/-! ### The senders of a publication -/

/-- How far a sender has come is in line with what the topic of its subscriber says of the value. -/
def Sender.Fits (found : List (Nat × Topic V)) (ch : Nat) (value : V) : Sender V → Prop
  | .started topic => (ch, topic) ∈ found
  | .selecting | .leaving .sent | .leaving .timedOut | .done .sent | .done .timedOut =>
      ∃ topic, (ch, topic) ∈ found ∧ topic value = true
  | .leaving .refused | .done .refused => ∃ topic, (ch, topic) ∈ found ∧ topic value = false

def Sender.isSent : Sender V → Bool
  | .leaving .sent | .done .sent => true
  | .started _ | .selecting | .leaving .refused | .leaving .timedOut | .done .refused | .done .timedOut => false

/-- The value was put into a channel. -/
def Publication.hasSent (p : Publication V) (ch : Nat) : Bool := (p.senders ch).any Sender.isSent

/-- Every subscriber that was found has a sender by the time all of them are waited for, and has one that has ended by
the time the publication returns. -/
structure Publication.Ok (p : Publication V) : Prop where
  spawned : ∀ ch, ch ∈ p.spawned ↔ (p.senders ch).isSome
  fits : ∀ ch sender, p.senders ch = some sender → sender.Fits p.found ch p.value
  locking : p.stage = .locking → p.spawned = []
  all : p.stage = .waiting ∨ p.stage = .returned → ∀ e ∈ p.found, e.1 ∈ p.spawned
  finished : p.stage = .returned → ∀ ch ∈ p.spawned, (p.senders ch).any Sender.isDone
  distinct : (p.found.map Prod.fst).Nodup

namespace Publication.Ok

theorem new (v : V) (after : List Nat) : Ok { value := v, after } := by
  constructor <;> simp

/-- A sender that has not ended works for a publication that holds the lock. -/
theorem holds_of_active (h : p.Ok) (hsender : p.senders ch = some sender) (hactive : sender.isDone = false) :
    p.holds = true := by
  have hspawned : ch ∈ p.spawned := (h.spawned ch).2 (by simp [hsender])
  unfold Publication.holds
  cases hstage : p.stage with
  | ranging | waiting => rfl
  | locking => simp [h.locking hstage] at hspawned
  | returned =>
    have hdone := h.finished hstage ch hspawned
    simp [hsender, hactive] at hdone

/-- The topic let the value pass. -/
theorem passes (h : p.Ok) (hsender : p.senders ch = some .selecting) :
    ∃ topic, (ch, topic) ∈ p.found ∧ topic p.value = true :=
  h.fits ch _ hsender

theorem passes_of_sent (h : p.Ok) (hsender : p.senders ch = some sender) (hsent : sender.isSent = true) :
    ∃ topic, (ch, topic) ∈ p.found ∧ topic p.value = true := by
  have hfits := h.fits ch sender hsender
  cases sender with
  | started topic => cases hsent
  | selecting => cases hsent
  | leaving outcome | done outcome =>
    cases outcome with
    | refused => cases hsent
    | sent => exact hfits
    | timedOut => cases hsent

/-- A sender goes on. -/
theorem setSender (h : p.Ok) {next : Sender V} (hsender : p.senders ch = some sender)
    (hactive : sender.isDone = false) (hfits : next.Fits p.found ch p.value) : (p.setSender ch next).Ok := by
  have hholds := h.holds_of_active hsender hactive
  constructor
  · intro other
    show other ∈ p.spawned ↔ (Function.update p.senders ch (some next) other).isSome
    by_cases hother : other = ch
    · subst hother
      rw [h.spawned, hsender, Function.update_self]
      rfl
    · rw [Function.update_of_ne hother]
      exact h.spawned other
  · intro other sender' hsender'
    change Function.update p.senders ch (some next) other = some sender' at hsender'
    by_cases hother : other = ch
    · subst hother
      rw [Function.update_self] at hsender'
      cases hsender'
      exact hfits
    · rw [Function.update_of_ne hother] at hsender'
      exact h.fits other sender' hsender'
  · exact h.locking
  · exact h.all
  · intro hstage
    change p.stage = .returned at hstage
    simp [Publication.holds, hstage] at hholds
  · exact h.distinct

theorem spawn (h : p.Ok) (hstage : p.stage = .ranging) (hnew : ch ∉ p.spawned) {topic : Topic V}
    (hfound : (ch, topic) ∈ p.found) :
    Ok { p.setSender ch (.started topic) with spawned := p.spawned ++ [ch] } := by
  constructor
  · intro other
    show other ∈ p.spawned ++ [ch] ↔ (Function.update p.senders ch (some (.started topic)) other).isSome
    by_cases hother : other = ch
    · subst hother
      simp
    · rw [Function.update_of_ne hother, ← h.spawned]
      simp [hother]
  · intro other sender' hsender'
    change Function.update p.senders ch (some (.started topic)) other = some sender' at hsender'
    by_cases hother : other = ch
    · subst hother
      rw [Function.update_self] at hsender'
      cases hsender'
      exact hfound
    · rw [Function.update_of_ne hother] at hsender'
      exact h.fits other sender' hsender'
  · intro hlocking
    exact absurd (hstage.symm.trans hlocking) Stage.noConfusion
  · rintro (hwaiting | hreturned)
    · exact absurd (hstage.symm.trans hwaiting) Stage.noConfusion
    · exact absurd (hstage.symm.trans hreturned) Stage.noConfusion
  · intro hreturned
    exact absurd (hstage.symm.trans hreturned) Stage.noConfusion
  · exact h.distinct

end Publication.Ok

/-- What a publication does that puts nothing into a channel. -/
structure Moves (s : State V) (p p' : Publication V) : Prop where
  ok : p'.Ok
  value : p'.value = p.value
  after : p'.after = p.after
  sent : ∀ ch, p'.hasSent ch = p.hasSent ch
  holds : p'.holds = true → (s.writer = none ∧ p'.found = s.subscribers) ∨ p.holds = true ∧ p'.found = p.found
  returned : p.stage = .returned → p'.stage = .returned

theorem hasSent_setSender {next : Sender V} (hsender : p.senders ch = some sender) (hsame : next.isSent = sender.isSent)
    (other : Nat) : (p.setSender ch next).hasSent other = p.hasSent other := by
  by_cases hother : other = ch
  · subst hother
    simp [Publication.hasSent, Publication.setSender, hsender, hsame]
  · simp [Publication.hasSent, Publication.setSender, hother]

theorem Publication.Ok.moves_setSender (h : p.Ok) {next : Sender V} (hsender : p.senders ch = some sender)
    (hactive : sender.isDone = false) (hfits : next.Fits p.found ch p.value) (hsame : next.isSent = sender.isSent) :
    Moves s p (p.setSender ch next) where
  ok := h.setSender hsender hactive hfits
  value := rfl
  after := rfl
  sent := hasSent_setSender hsender hsame
  holds _ := .inr ⟨h.holds_of_active hsender hactive, rfl⟩
  returned := id

theorem Publication.Ok.callStep (h : p.Ok) (hfound : p.holds = true → p.found = s.subscribers)
    (hdistinct : (s.subscribers.map Prod.fst).Nodup) {b : CallAction} (hstep : callStep s p b = some p') : Moves s p p' := by
  cases b with
  | rLock =>
    simp only [PubSub.callStep] at hstep
    split_ifs at hstep with hcond
    obtain ⟨hstage, hwriter⟩ := hcond
    cases hstep
    have hnone := h.locking hstage
    refine ⟨?_, rfl, rfl, fun _ => rfl, fun _ => .inl ⟨Option.isNone_iff_eq_none.1 hwriter, rfl⟩, ?_⟩
    · constructor
      · exact h.spawned
      · intro ch sender hsender
        change p.senders ch = some sender at hsender
        have hspawned := (h.spawned ch).2 (by simp [hsender])
        simp [hnone] at hspawned
      · intro _
        exact hnone
      · simp
      · simp
      · exact hdistinct
    · intro hreturned
      exact absurd (hstage.symm.trans hreturned) Stage.noConfusion
  | spawn ch =>
    simp only [PubSub.callStep] at hstep
    split_ifs at hstep with hcond
    obtain ⟨hstage, hnew⟩ := hcond
    obtain ⟨e, he, rfl⟩ := Option.map_eq_some_iff.1 hstep
    have hholds : p.holds = true := by simp [Publication.holds, hstage]
    have hkey : e.1 = ch := by simpa using List.find?_some he
    have hmem : (ch, e.2) ∈ p.found := by
      rw [hfound hholds, ← hkey]
      exact List.mem_of_find?_eq_some he
    have hfresh : p.senders ch = none := by
      rw [← Option.not_isSome_iff_eq_none, ← h.spawned]
      exact hnew
    refine ⟨h.spawn hstage hnew hmem, rfl, rfl, ?_, fun _ => .inr ⟨hholds, rfl⟩, id⟩
    intro other
    by_cases hother : other = ch
    · subst hother
      simp [Publication.hasSent, Publication.setSender, hfresh, Sender.isSent]
    · simp [Publication.hasSent, Publication.setSender, hother]
  | ranged =>
    simp only [PubSub.callStep] at hstep
    split_ifs at hstep with hcond
    obtain ⟨hstage, hall⟩ := hcond
    cases hstep
    have hholds : p.holds = true := by simp [Publication.holds, hstage]
    refine ⟨⟨h.spawned, h.fits, by simp, ?_, by simp, h.distinct⟩, rfl, rfl, fun _ => rfl, fun _ => .inr ⟨hholds, rfl⟩, ?_⟩
    · intro _
      rw [← hfound hholds] at hall
      exact hall
    · intro hreturned
      exact absurd (hstage.symm.trans hreturned) Stage.noConfusion
  | topic ch =>
    simp only [PubSub.callStep] at hstep
    split at hstep
    · rename_i topic hsender
      cases hstep
      have hfits : (ch, topic) ∈ p.found := h.fits ch _ hsender
      by_cases hpasses : topic p.value = true
      · rw [if_pos hpasses]
        exact h.moves_setSender hsender rfl ⟨topic, hfits, hpasses⟩ rfl
      · rw [if_neg hpasses]
        exact h.moves_setSender hsender rfl ⟨topic, hfits, Bool.eq_false_iff.2 hpasses⟩ rfl
    · cases hstep
  | timeout ch =>
    simp only [PubSub.callStep] at hstep
    split at hstep
    · rename_i hsender
      cases hstep
      exact h.moves_setSender hsender rfl (h.passes hsender) rfl
    · cases hstep
  | done ch =>
    simp only [PubSub.callStep] at hstep
    split at hstep
    · rename_i outcome hsender
      cases hstep
      have hfits := h.fits ch _ hsender
      cases outcome with
      | refused => exact h.moves_setSender hsender rfl hfits rfl
      | sent => exact h.moves_setSender hsender rfl hfits rfl
      | timedOut => exact h.moves_setSender hsender rfl hfits rfl
    · cases hstep
  | wait =>
    simp only [PubSub.callStep] at hstep
    split_ifs at hstep with hcond
    obtain ⟨hstage, hdone⟩ := hcond
    cases hstep
    refine ⟨⟨h.spawned, h.fits, by simp, ?_, ?_, h.distinct⟩, rfl, rfl, fun _ => rfl, by simp [Publication.holds],
      fun _ => rfl⟩
    · intro _
      exact h.all (.inl hstage)
    · intro _
      exact hdone

/-! ### The lock and the map -/

/-- A channel that is sent to or received from stays open or closed. -/
theorem exists_of_setChannel {channel channel' new : Channel (Nat × V)} (hchannel : s.channels ch = some channel)
    (hclosed : channel'.closed = channel.closed) {other : Nat}
    (hnew : (s.setChannel ch channel').channels other = some new) :
    ∃ old, s.channels other = some old ∧ new.closed = old.closed := by
  by_cases hother : other = ch
  · subst hother
    simp only [State.setChannel, Function.update_self, Option.some.injEq] at hnew
    exact ⟨channel, hchannel, hnew ▸ hclosed⟩
  · simp only [State.setChannel, Function.update_of_ne hother] at hnew
    exact ⟨new, hnew, rfl⟩

/-- The channels in the map are open, and nobody changes the map while a publication holds the lock. -/
structure Locked (s : State V) : Prop where
  begun : ∀ c, c < s.begun ↔ (s.calls c).isSome
  made : ∀ ch, ch < s.made ↔ (s.channels ch).isSome
  calls : ∀ c p, s.calls c = some p → p.Ok
  excluded : s.writer.isSome → ∀ c, s.reading c = false
  found : ∀ c p, s.calls c = some p → p.holds = true → p.found = s.subscribers
  distinct : (s.subscribers.map Prod.fst).Nodup
  known : ∀ e ∈ s.subscribers, e.1 < s.made
  isOpen : ∀ e ∈ s.subscribers, ∀ channel, s.channels e.1 = some channel → channel.closed = false
  closing : ∀ ch more, s.writer = some (.closing ch more) → ch < s.made ∧ (∀ e ∈ s.subscribers, e.1 ≠ ch) ∧
    (more = true → ∀ channel, s.channels ch = some channel → channel.closed = false)
  evict : ∀ ch, s.writer = some (.evict ch) → ch < s.made

namespace Locked

theorem new (buffer : Nat) : Locked (State.new buffer : State V) := by
  constructor <;> simp [State.new]

theorem call_eq_none (h : Locked s) {c : Nat} (hc : ¬ c < s.begun) : s.calls c = none := by
  rwa [h.begun, Option.not_isSome_iff_eq_none] at hc

/-- A publication changes, and nothing else but a channel. -/
theorem moved (h : Locked s) (hp : s.calls c = some p) (hok : p'.Ok)
    (hholds : p'.holds = true → (s.writer = none ∧ p'.found = s.subscribers) ∨ p.holds = true ∧ p'.found = p.found) :
    Locked (s.setCall c p') := by
  have hsome (other : Nat) : ((s.setCall c p').calls other).isSome = (s.calls other).isSome := by
    by_cases hother : other = c
    · subst hother
      simp [State.setCall, hp]
    · simp [State.setCall, hother]
  have hcall : ∀ other q, (s.setCall c p').calls other = some q → (other = c ∧ q = p') ∨ s.calls other = some q := by
    intro other q hq
    by_cases hother : other = c
    · subst hother
      simp only [State.setCall, Function.update_self, Option.some.injEq] at hq
      exact .inl ⟨rfl, hq.symm⟩
    · simp only [State.setCall, Function.update_of_ne hother] at hq
      exact .inr hq
  constructor
  · intro other
    rw [hsome]
    exact h.begun other
  · exact h.made
  · intro other q hq
    rcases hcall other q hq with ⟨-, rfl⟩ | hold
    · exact hok
    · exact h.calls other q hold
  · intro hwriter other
    change s.writer.isSome at hwriter
    by_cases hother : other = c
    · subst hother
      have hfree := h.excluded hwriter other
      simp only [State.reading, hp, Option.any_some] at hfree
      simp only [State.reading, State.setCall, Function.update_self, Option.any_some]
      apply Bool.eq_false_iff.2
      intro hnow
      rcases hholds hnow with ⟨hnone, -⟩ | ⟨hbefore, -⟩
      · rw [hnone] at hwriter
        cases hwriter
      · rw [hfree] at hbefore
        cases hbefore
    · simpa [State.reading, State.setCall, hother] using h.excluded hwriter other
  · intro other q hq hqholds
    rcases hcall other q hq with ⟨-, rfl⟩ | hold
    · rcases hholds hqholds with ⟨-, hfound⟩ | ⟨hbefore, hsame⟩
      · exact hfound
      · rw [hsame]
        exact h.found c p hp hbefore
    · exact h.found other q hold hqholds
  · exact h.distinct
  · exact h.known
  · exact h.isOpen
  · exact h.closing
  · exact h.evict

/-- A channel is sent to or received from. -/
theorem setChannel (h : Locked s) {channel channel' : Channel (Nat × V)} (hchannel : s.channels ch = some channel)
    (hclosed : channel'.closed = channel.closed) : Locked (s.setChannel ch channel') := by
  constructor
  · exact h.begun
  · intro other
    by_cases hother : other = ch
    · subst hother
      simpa [State.setChannel, hchannel] using h.made other
    · simpa [State.setChannel, hother] using h.made other
  · exact h.calls
  · exact h.excluded
  · exact h.found
  · exact h.distinct
  · exact h.known
  · intro e he new hnew
    obtain ⟨old, hold, heq⟩ := exists_of_setChannel hchannel hclosed hnew
    rw [heq]
    exact h.isOpen e he old hold
  · intro other more hwriter
    obtain ⟨hmade, hout, hmore⟩ := h.closing other more hwriter
    refine ⟨hmade, hout, ?_⟩
    intro htrue new hnew
    obtain ⟨old, hold, heq⟩ := exists_of_setChannel hchannel hclosed hnew
    rw [heq]
    exact hmore htrue old hold
  · exact h.evict

theorem publish (h : Locked s) (v : V) (after : List Nat) : Locked { s with
    calls := Function.update s.calls s.begun (some { value := v, after }), begun := s.begun + 1 } := by
  have hcall : ∀ c p, Function.update s.calls s.begun (some { value := v, after }) c = some p →
      (c = s.begun ∧ p = { value := v, after }) ∨ s.calls c = some p := by
    intro c p hp
    by_cases hc : c = s.begun
    · subst hc
      rw [Function.update_self] at hp
      exact .inl ⟨rfl, (Option.some.inj hp).symm⟩
    · rw [Function.update_of_ne hc] at hp
      exact .inr hp
  constructor
  · intro c
    show c < s.begun + 1 ↔ (Function.update s.calls s.begun (some { value := v, after }) c).isSome
    by_cases hc : c = s.begun
    · subst hc
      simp
    · rw [Function.update_of_ne hc, ← h.begun]
      omega
  · exact h.made
  · intro c p hp
    rcases hcall c p hp with ⟨-, rfl⟩ | hold
    · exact Publication.Ok.new v after
    · exact h.calls c p hold
  · intro hwriter c
    by_cases hc : c = s.begun
    · subst hc
      simp [State.reading, Publication.holds]
    · simpa [State.reading, hc] using h.excluded hwriter c
  · intro c p hp hholds
    rcases hcall c p hp with ⟨-, rfl⟩ | hold
    · cases hholds
    · exact h.found c p hold hholds
  · exact h.distinct
  · exact h.known
  · exact h.isOpen
  · exact h.closing
  · exact h.evict

theorem lock (h : Locked s) {writer : Writer V} (hlock : lock s writer = some s')
    (hwriter : (∃ topic, writer = .subscribe topic) ∨ (∃ ch, writer = .evict ch ∧ ch < s.made) ∨ writer = .close) :
    Locked s' := by
  obtain ⟨rfl, -, hreading⟩ := lock_spec hlock
  refine ⟨h.begun, h.made, h.calls, ?_, h.found, h.distinct, h.known, h.isOpen, ?_, ?_⟩
  · intro _ c
    by_cases hc : c < s.begun
    · exact hreading c hc
    · show (s.calls c).any Publication.holds = false
      rw [h.call_eq_none hc]
      rfl
  · intro ch more hclosing
    rcases hwriter with ⟨topic, rfl⟩ | ⟨sub, rfl, -⟩ | rfl
    · cases hclosing
    · cases hclosing
    · cases hclosing
  · intro ch hevict
    rcases hwriter with ⟨topic, rfl⟩ | ⟨sub, rfl, hmade⟩ | rfl
    · cases hevict
    · cases hevict
      exact hmade
    · cases hevict

/-- One who holds the lock goes on. -/
theorem writing (h : Locked s) {writer : Writer V} (hsome : s.writer = some writer) {next : Option (Writer V)}
    (hclosing : ∀ ch more, next = some (.closing ch more) → ch < s.made ∧ (∀ e ∈ s.subscribers, e.1 ≠ ch) ∧
      (more = true → ∀ channel, s.channels ch = some channel → channel.closed = false))
    (hevict : ∀ ch, next ≠ some (.evict ch)) : Locked { s with writer := next } := by
  refine ⟨h.begun, h.made, h.calls, ?_, h.found, h.distinct, h.known, h.isOpen, hclosing, ?_⟩
  · intro _
    exact h.excluded (by simp [hsome])
  · intro ch hnext
    exact absurd hnext (hevict ch)

theorem not_holds (h : Locked s) (hwriter : s.writer.isSome) (hp : s.calls c = some p) : p.holds = false := by
  have hfree := h.excluded hwriter c
  simpa [State.reading, hp] using hfree

theorem delete (h : Locked s) {writer : Writer V} (hwriter : s.writer = some writer) (ch : Nat) :
    Locked { s with subscribers := (s.delete ch).subscribers, writer := some .unlocking } := by
  have hsome : s.writer.isSome := by simp [hwriter]
  have hmem : ∀ {e}, e ∈ (s.delete ch).subscribers → e ∈ s.subscribers := fun he => (List.mem_filter.1 he).1
  refine ⟨h.begun, h.made, h.calls, ?_, ?_, ?_, ?_, ?_, ?_, ?_⟩
  · intro _
    exact h.excluded hsome
  · intro c p hp hholds
    rw [h.not_holds hsome hp] at hholds
    cases hholds
  · exact h.distinct.sublist (List.filter_sublist.map Prod.fst)
  · intro e he
    exact h.known e (hmem he)
  · intro e he
    exact h.isOpen e (hmem he)
  · intro other more hclosing
    cases hclosing
  · intro other hevict
    cases hevict

theorem subscribe (h : Locked s) {writer : Writer V} (hwriter : s.writer = some writer) (topic : Topic V) : Locked { s with
    subscribers := s.subscribers ++ [(s.made, topic)]
    channels := Function.update s.channels s.made (some (.make s.buffer))
    made := s.made + 1
    writer := some .unlocking } := by
  have hsome : s.writer.isSome := by simp [hwriter]
  have hnew : s.made ∉ s.subscribers.map Prod.fst := by
    intro hmem
    obtain ⟨e, he, heq⟩ := List.mem_map.1 hmem
    exact absurd (h.known e he) (by omega)
  constructor
  · exact h.begun
  · intro ch
    show ch < s.made + 1 ↔ (Function.update s.channels s.made (some (.make s.buffer)) ch).isSome
    by_cases hch : ch = s.made
    · subst hch
      simp
    · rw [Function.update_of_ne hch, ← h.made]
      omega
  · exact h.calls
  · intro _
    exact h.excluded hsome
  · intro c p hp hholds
    rw [h.not_holds hsome hp] at hholds
    cases hholds
  · show ((s.subscribers ++ [(s.made, topic)]).map Prod.fst).Nodup
    rw [List.map_append]
    exact List.Nodup.append h.distinct (List.nodup_singleton _) (List.disjoint_singleton.2 hnew)
  · intro e he
    rcases List.mem_append.1 he with hold | hlast
    · exact Nat.lt_succ_of_lt (h.known e hold)
    · rw [List.mem_singleton.1 hlast]
      exact Nat.lt_succ_self _
  · intro e he channel hchannel
    by_cases hnew : e.1 = s.made
    · simp only [hnew, Function.update_self, Option.some.injEq] at hchannel
      rw [← hchannel]
      rfl
    · simp only [Function.update_of_ne hnew] at hchannel
      rcases List.mem_append.1 he with hold | hlast
      · exact h.isOpen e hold channel hchannel
      · rw [List.mem_singleton.1 hlast] at hnew
        exact absurd rfl hnew
  · intro ch more hclosing
    cases hclosing
  · intro ch hevict
    cases hevict

/-- The channel that is closed is not in the map. -/
theorem close (h : Locked s) {more : Bool} (hwriter : s.writer = some (.closing ch more))
    {channel : Channel (Nat × V)} (hchannel : s.channels ch = some channel) :
    Locked { s.setChannel ch channel.close with writer := some .unlocking } := by
  have hsome : s.writer.isSome := by simp [hwriter]
  obtain ⟨hmade, hout, -⟩ := h.closing ch more hwriter
  refine ⟨h.begun, ?_, h.calls, ?_, h.found, h.distinct, h.known, ?_, ?_, ?_⟩
  · intro other
    by_cases hother : other = ch
    · subst hother
      simpa [State.setChannel, hchannel] using h.made other
    · simpa [State.setChannel, hother] using h.made other
  · intro _
    exact h.excluded hsome
  · intro e he channel' hchannel'
    have hother : e.1 ≠ ch := hout e he
    simp only [State.setChannel, Function.update_of_ne hother] at hchannel'
    exact h.isOpen e he channel' hchannel'
  · intro other more' hclosing
    cases hclosing
  · intro other hevict
    cases hevict

/-- A step of the one who holds the lock for writing panics or goes on. -/
theorem writerStep (h : Locked s) (hstep : writerStep s ch = some s') : Locked s' ∧
    (s'.panicked = s.panicked ∨ s'.panicked = some .closeOfClosed) := by
  obtain ⟨topic, hwriter, rfl⟩ | ⟨sub, hwriter, rfl⟩ | ⟨hwriter, rfl⟩ | ⟨e, he, hwriter, rfl⟩ |
    ⟨sub, more, channel, hwriter, hchannel, hclose⟩ | ⟨hwriter, rfl⟩ := writerStep_cases hstep
  · exact ⟨h.subscribe hwriter topic, .inl rfl⟩
  · refine ⟨(h.delete hwriter sub).writing rfl ?_ (by simp), .inl rfl⟩
    intro ch more hclosing
    cases hclosing
    refine ⟨h.evict sub hwriter, ?_, by simp⟩
    intro e he
    simpa using (List.mem_filter.1 he).2
  · exact ⟨h.writing hwriter (by simp) (by simp), .inl rfl⟩
  · refine ⟨(h.delete hwriter e.1).writing rfl ?_ (by simp), .inl rfl⟩
    intro other more hclosing
    cases hclosing
    refine ⟨h.known e he, ?_, ?_⟩
    · intro e' he'
      simpa using (List.mem_filter.1 he').2
    · intro _ channel hchannel
      exact h.isOpen e he channel hchannel
  · rcases hclose with ⟨-, rfl⟩ | ⟨-, rfl⟩
    · exact ⟨⟨h.begun, h.made, h.calls, h.excluded, h.found, h.distinct, h.known, h.isOpen, h.closing, h.evict⟩,
        .inr rfl⟩
    · refine ⟨(h.close hwriter hchannel).writing rfl ?_ ?_, .inl rfl⟩
      · intro other more' hclosing
        split at hclosing <;> cases hclosing
      · intro other hevict
        split at hevict <;> cases hevict
  · exact ⟨h.writing hwriter (by simp) (by simp), .inl rfl⟩

/-- Somebody sends to a channel only while it is open. -/
theorem open_of_selecting (h : Locked s) (hp : s.calls c = some p) (hsender : p.senders ch = some .selecting)
    {channel : Channel (Nat × V)} (hchannel : s.channels ch = some channel) : channel.closed = false := by
  have hok := h.calls c p hp
  have hholds := hok.holds_of_active hsender rfl
  obtain ⟨topic, hfound, -⟩ := hok.passes hsender
  rw [h.found c p hp hholds] at hfound
  exact h.isOpen _ hfound channel hchannel

/-- A sender has sent. -/
theorem sends (h : Locked s) (hp : s.calls c = some p) (hsender : p.senders ch = some .selecting) :
    Locked (s.setCall c (p.setSender ch (.leaving .sent))) := by
  have hok := h.calls c p hp
  refine h.moved hp (hok.setSender hsender rfl (hok.passes hsender)) ?_
  intro _
  exact .inr ⟨hok.holds_of_active hsender rfl, rfl⟩

theorem step {a : Action V} (h : Locked s) (hstep : step s a = some s') : Locked s' := by
  obtain ⟨-, ⟨v, rfl⟩ | ⟨c, b, p, p', hp, hcall, rfl⟩ | ⟨c, ch, p, channel, hp, hsender, hchannel, hput⟩ |
    ⟨writer, hlock, hwriter⟩ | ⟨ch, hwrite⟩ | ⟨ch, channel, channel', hchannel, hreceive, rfl⟩⟩ := step_cases hstep
  · exact h.publish v _
  · have hmoves := (h.calls c p hp).callStep (h.found c p hp) h.distinct hcall
    exact h.moved hp hmoves.ok hmoves.holds
  · rcases hput with ⟨hclosed, -⟩ | ⟨-, channel', hputs, rfl⟩
    · rw [h.open_of_selecting hp hsender hchannel] at hclosed
      cases hclosed
    · exact (h.sends hp hsender).setChannel hchannel hputs.closed
  · apply h.lock hlock
    rcases hwriter with htopic | ⟨ch, -, heq, hmade⟩ | hclose
    · exact .inl htopic
    · exact .inr (.inl ⟨ch, heq, hmade⟩)
    · exact .inr (.inr hclose)
  · exact (h.writerStep hwrite).1
  · exact h.setChannel hchannel (Channel.receive_spec hreceive).2.2.1

end Locked

/-! ### Panics -/

/-- No panic is ahead as long as every `Evict` is of a channel in the map. -/
structure Quiet (s : State V) : Prop where
  locked : Locked s
  panicked : s.panicked = none
  evict : ∀ ch, s.writer = some (.evict ch) → ch ∈ s.subscribers.map Prod.fst
  closing : ∀ ch more, s.writer = some (.closing ch more) →
    ∀ channel, s.channels ch = some channel → channel.closed = false

def EvictsSubscribed (s : State V) : Action V → Prop
  | .evict ch => ch ∈ s.subscribers.map Prod.fst
  | .publish _ | .call .. | .send .. | .handOver .. | .subscribeTopic _ | .close | .write _ | .receive _ => True

instance (s : State V) : (a : Action V) → Decidable (EvictsSubscribed s a)
  | .evict ch => inferInstanceAs (Decidable (ch ∈ s.subscribers.map Prod.fst))
  | .publish _ | .call .. | .send .. | .handOver .. | .subscribeTopic _ | .close | .write _ | .receive _ =>
      inferInstanceAs (Decidable True)

namespace Quiet

theorem new (buffer : Nat) : Quiet (State.new buffer : State V) :=
  ⟨Locked.new buffer, rfl, by simp [State.new], by simp [State.new]⟩

theorem setChannel (h : Quiet s) {channel channel' : Channel (Nat × V)} (hlocked : Locked (s.setChannel ch channel'))
    (hchannel : s.channels ch = some channel) (hclosed : channel'.closed = channel.closed) :
    Quiet (s.setChannel ch channel') := by
  refine ⟨hlocked, h.panicked, h.evict, ?_⟩
  intro other more hwriter new hnew
  obtain ⟨old, hold, heq⟩ := exists_of_setChannel hchannel hclosed hnew
  rw [heq]
  exact h.closing other more hwriter old hold

theorem writerStep (h : Quiet s) (hlocked : Locked s') (hstep : writerStep s ch = some s') : Quiet s' := by
  obtain ⟨topic, hwriter, rfl⟩ | ⟨sub, hwriter, rfl⟩ | ⟨hwriter, rfl⟩ | ⟨e, he, hwriter, rfl⟩ |
    ⟨sub, more, channel, hwriter, hchannel, hclose⟩ | ⟨hwriter, rfl⟩ := writerStep_cases hstep
  · exact ⟨hlocked, h.panicked, by simp, by simp⟩
  · refine ⟨hlocked, h.panicked, by simp, ?_⟩
    intro other more hclosing channel hchannel
    cases hclosing
    obtain ⟨e, he, rfl⟩ := List.mem_map.1 (h.evict sub hwriter)
    exact h.locked.isOpen e he channel hchannel
  · exact ⟨hlocked, h.panicked, by simp, by simp⟩
  · refine ⟨hlocked, h.panicked, by simp, ?_⟩
    intro other more hclosing channel hchannel
    cases hclosing
    exact h.locked.isOpen e he channel hchannel
  · rcases hclose with ⟨hclosed, -⟩ | ⟨-, rfl⟩
    · rw [h.closing sub more hwriter channel hchannel] at hclosed
      cases hclosed
    · refine ⟨hlocked, h.panicked, ?_, ?_⟩
      · intro other hevict
        dsimp only at hevict
        split at hevict <;> cases hevict
      · intro other more' hclosing
        dsimp only at hclosing
        split at hclosing <;> cases hclosing
  · exact ⟨hlocked, h.panicked, by simp, by simp⟩

theorem step {a : Action V} (h : Quiet s) (hallowed : EvictsSubscribed s a) (hstep : step s a = some s') :
    Quiet s' := by
  have hlocked := h.locked.step hstep
  obtain ⟨-, ⟨v, rfl⟩ | ⟨c, b, p, p', hp, hcall, rfl⟩ | ⟨c, ch, p, channel, hp, hsender, hchannel, hput⟩ |
    ⟨writer, hlock, hwriter⟩ | ⟨ch, hwrite⟩ | ⟨ch, channel, channel', hchannel, hreceive, rfl⟩⟩ := step_cases hstep
  · exact ⟨hlocked, h.panicked, h.evict, h.closing⟩
  · exact ⟨hlocked, h.panicked, h.evict, h.closing⟩
  · rcases hput with ⟨hclosed, -⟩ | ⟨-, channel', hputs, rfl⟩
    · rw [h.locked.open_of_selecting hp hsender hchannel] at hclosed
      cases hclosed
    · have hcall : Quiet (s.setCall c (p.setSender ch (.leaving .sent))) :=
        ⟨h.locked.sends hp hsender, h.panicked, h.evict, h.closing⟩
      exact hcall.setChannel hlocked hchannel hputs.closed
  · obtain ⟨rfl, -, -⟩ := lock_spec hlock
    refine ⟨hlocked, h.panicked, ?_, ?_⟩
    · rcases hwriter with ⟨topic, rfl⟩ | ⟨sub, rfl, rfl, -⟩ | rfl
      · simp
      · intro ch hevict
        cases hevict
        exact hallowed
      · simp
    · rcases hwriter with ⟨topic, rfl⟩ | ⟨sub, rfl, rfl, -⟩ | rfl <;> simp
  · exact h.writerStep hlocked hwrite
  · exact h.setChannel hlocked hchannel (Channel.receive_spec hreceive).2.2.1

end Quiet

/-- What is said of the map, the channels and the lock alone is kept when it is kept by their own steps. -/
theorem step_channels {Inv : State V → Prop} {a : Action V} (h : Inv s) (hstep : step s a = some s')
    (hcalls : ∀ {s : State V} {calls begun panicked}, Inv s → Inv { s with calls, begun, panicked })
    (hchannel : ∀ {s : State V} {ch : Nat} {channel channel' : Channel (Nat × V)}, Inv s →
      s.channels ch = some channel → channel'.closed = channel.closed → channel'.capacity = channel.capacity →
        Inv (s.setChannel ch channel'))
    (hlock : ∀ {s s' : State V} {writer : Writer V}, Inv s → lock s writer = some s' → Inv s')
    (hwrite : ∀ {s s' : State V} {ch : Nat}, Inv s → writerStep s ch = some s' → Inv s') : Inv s' := by
  obtain ⟨-, ⟨v, rfl⟩ | ⟨c, b, p, p', -, -, rfl⟩ | ⟨c, ch, p, channel, -, -, hopen, hput⟩ | ⟨writer, htaken, -⟩ |
    ⟨ch, hwritten⟩ | ⟨ch, channel, channel', hopen, hreceive, rfl⟩⟩ := step_cases hstep
  · exact hcalls h
  · exact hcalls h
  · rcases hput with ⟨-, rfl⟩ | ⟨-, channel', hputs, rfl⟩
    · exact hcalls h
    · have hcall : Inv (s.setCall c (p.setSender ch (.leaving .sent))) := hcalls h
      exact hchannel hcall hopen hputs.closed hputs.capacity
  · exact hlock h htaken
  · exact hwrite h hwritten
  · obtain ⟨-, -, hclosed, hcapacity⟩ := Channel.receive_spec hreceive
    exact hchannel h hopen hclosed hcapacity

/-- A channel that left the map is closed, or it is the one that is to be closed next. -/
def Gone (s : State V) : Prop :=
  ∀ ch channel, s.channels ch = some channel → ch ∉ s.subscribers.map Prod.fst →
    (∀ more, s.writer ≠ some (.closing ch more)) → channel.closed = true

namespace Gone

theorem setChannel (h : Gone s) {channel channel' : Channel (Nat × V)} (hchannel : s.channels ch = some channel)
    (hclosed : channel'.closed = channel.closed) : Gone (s.setChannel ch channel') := by
  intro other new hnew hout hwriter
  obtain ⟨old, hold, heq⟩ := exists_of_setChannel hchannel hclosed hnew
  rw [heq]
  exact h other old hold hout hwriter

/-- The channel that is deleted is the one that is to be closed next. -/
theorem delete (h : Gone s) (hwriter : ∀ ch more, s.writer ≠ some (.closing ch more)) (sub : Nat) (more : Bool) :
    Gone { s.delete sub with writer := some (.closing sub more) } := by
  intro other channel hchannel hout hnext
  have hother : other ≠ sub := by
    rintro rfl
    exact hnext more rfl
  refine h other channel hchannel ?_ (hwriter other)
  intro hmem
  obtain ⟨e, he, rfl⟩ := List.mem_map.1 hmem
  exact hout (List.mem_map_of_mem (List.mem_filter.2 ⟨he, by simpa using hother⟩))

theorem writerStep (h : Gone s) (hstep : writerStep s ch = some s') : Gone s' := by
  obtain ⟨topic, hwriter, rfl⟩ | ⟨sub, hwriter, rfl⟩ | ⟨hwriter, rfl⟩ | ⟨e, he, hwriter, rfl⟩ |
    ⟨sub, more, channel, hwriter, hchannel, hclose⟩ | ⟨hwriter, rfl⟩ := writerStep_cases hstep
  · intro other channel hchannel hout _
    have hother : other ≠ s.made := by
      rintro rfl
      simp at hout
    refine h other channel ?_ ?_ (by simp [hwriter])
    · simpa [hother] using hchannel
    · intro hmem
      rw [List.map_append] at hout
      exact hout (List.mem_append_left _ hmem)
  · exact h.delete (by simp [hwriter]) sub false
  · intro other channel hchannel hout _
    exact h other channel hchannel hout (by simp [hwriter])
  · exact h.delete (by simp [hwriter]) e.1 true
  · rcases hclose with ⟨-, rfl⟩ | ⟨-, rfl⟩
    · exact h
    · intro other new hnew hout _
      by_cases hother : other = sub
      · subst hother
        simp only [State.setChannel, Function.update_self, Option.some.injEq] at hnew
        rw [← hnew]
        rfl
      · simp only [State.setChannel, Function.update_of_ne hother] at hnew
        apply h other new hnew hout
        intro more' hother'
        rw [hwriter] at hother'
        cases hother'
        exact hother rfl
  · intro other channel hchannel hout _
    exact h other channel hchannel hout (by simp [hwriter])

theorem lock (h : Gone s) {writer : Writer V} (hlock : lock s writer = some s') : Gone s' := by
  obtain ⟨rfl, hfree, -⟩ := lock_spec hlock
  intro other channel hchannel hout _
  apply h other channel hchannel hout
  simp [hfree]

theorem step {a : Action V} (h : Gone s) (hstep : step s a = some s') : Gone s' := by
  apply step_channels h hstep
  · intro s calls begun panicked h
    exact h
  · intro s ch channel channel' h hchannel hclosed _
    exact h.setChannel hchannel hclosed
  · intro s s' writer h hlock
    exact h.lock hlock
  · intro s s' ch h hwrite
    exact h.writerStep hwrite

end Gone

/-- A step panics only by closing a channel again. -/
theorem panicked_step {a : Action V} (h : Locked s) (hstep : step s a = some s') :
    s'.panicked = none ∨ s'.panicked = some .closeOfClosed := by
  obtain ⟨hnone, ⟨v, rfl⟩ | ⟨c, b, p, p', -, -, rfl⟩ | ⟨c, ch, p, channel, hp, hsender, hchannel, hput⟩ |
    ⟨writer, hlock, -⟩ | ⟨ch, hwrite⟩ | ⟨ch, channel, channel', -, -, rfl⟩⟩ := step_cases hstep
  · exact .inl hnone
  · exact .inl hnone
  · rcases hput with ⟨hclosed, -⟩ | ⟨-, channel', -, rfl⟩
    · rw [h.open_of_selecting hp hsender hchannel] at hclosed
      cases hclosed
    · exact .inl hnone
  · obtain ⟨rfl, -, -⟩ := lock_spec hlock
    exact .inl hnone
  · rw [← hnone]
    exact (h.writerStep hwrite).2
  · exact .inl hnone

/-- After any actions. -/
def Reached (buffer : Nat) (s : State V) : Prop :=
  ∃ actions, runActions step (State.new buffer) actions = some s

variable {buffer : Nat}

theorem Reached.locked (h : Reached buffer s) : Locked s := by
  obtain ⟨actions, hrun⟩ := h
  exact runActions_invariant Locked Locked.step (Locked.new buffer) hrun

theorem Reached.gone (h : Reached buffer s) : Gone s := by
  obtain ⟨actions, hrun⟩ := h
  refine runActions_invariant Gone Gone.step ?_ hrun
  intro ch channel hchannel
  cases hchannel

theorem not_sendOnClosed (h : Reached buffer s) : s.panicked ≠ some .sendOnClosed := by
  obtain ⟨actions, hrun⟩ := h
  refine (runActions_invariant (fun s => Locked s ∧ s.panicked ≠ some .sendOnClosed) ?_ ⟨Locked.new buffer, ?_⟩ hrun).2
  · rintro s a t ⟨hlocked, -⟩ hstep
    refine ⟨hlocked.step hstep, ?_⟩
    rcases panicked_step hlocked hstep with hnone | hclose
    · simp [hnone]
    · simp [hclose]
  · simp [State.new]

/-- An `Evict` of a channel that is not in the map closes it again. -/
theorem evict_panics (h : Reached buffer s) (hevict : step s (.evict ch) = some s')
    (hout : ch ∉ s.subscribers.map Prod.fst) :
    ∃ t, runActions step s' [.write ch, .write ch] = some t ∧ t.panicked = some .closeOfClosed := by
  unfold step at hevict
  split_ifs at hevict with hpanicked
  simp only at hevict
  split_ifs at hevict with hmade
  obtain ⟨rfl, hfree, -⟩ := lock_spec hevict
  have hnone : s.panicked = none := Option.not_isSome_iff_eq_none.1 hpanicked
  obtain ⟨channel, hchannel⟩ := Option.isSome_iff_exists.1 ((h.locked.made ch).1 hmade)
  have hclosed := h.gone ch channel hchannel hout (by simp [hfree])
  have hdelete : step { s with writer := some (.evict ch) } (.write ch) =
      some { s.delete ch with writer := some (.closing ch false) } := by
    simp [step, writerStep, State.delete, hnone]
  have hclose : step { s.delete ch with writer := some (.closing ch false) } (.write ch) =
      some { s.delete ch with writer := some (.closing ch false), panicked := some .closeOfClosed } := by
    simp [step, writerStep, State.delete, hnone, hchannel, hclosed]
  refine ⟨{ s.delete ch with writer := some (.closing ch false), panicked := some .closeOfClosed }, ?_, rfl⟩
  simp only [runActions, hdelete, hclose, Option.bind_some]

/-- Nobody ever sends on a closed channel. A run in which each `Evict` is of a channel in the map has no panic, and
an `Evict` of another channel that the publisher made panics. -/
theorem panic_free {actions : List (Action V)} (hrun : runActions step (State.new buffer) actions = some s) :
    s.panicked ≠ some .sendOnClosed ∧
      (Allowed step EvictsSubscribed (State.new buffer) actions → s.panicked = none) ∧
      ∀ ch s', step s (.evict ch) = some s' → ch ∉ s.subscribers.map Prod.fst →
        ∃ t, runActions step s' [.write ch, .write ch] = some t ∧ t.panicked = some .closeOfClosed := by
  have hreached : Reached buffer s := ⟨actions, hrun⟩
  refine ⟨not_sendOnClosed hreached, ?_, ?_⟩
  · intro hallowed
    exact (allowed_invariant Quiet Quiet.step (Quiet.new buffer) hallowed hrun).panicked
  · intro ch s' hevict hout
    exact evict_panics hreached hevict hout

/-- A subscriber leaves while a value waits in its channel, and leaves once more. -/
def leavesTwice : List (Action Nat) :=
  [.subscribe, .write 0, .write 0, .publish 7, .call 0 .rLock, .call 0 (.spawn 0), .call 0 .ranged, .call 0 (.topic 0),
    .send 0 0, .call 0 (.done 0), .call 0 .wait, .evict 0, .write 0, .write 0, .write 0]

theorem panic_free_leavesTwice : ∃ s s' : State Nat, runActions step (State.new 1) leavesTwice = some s ∧
    s.panicked = none ∧ step s (.evict 0) = some s' ∧
      ∃ t, runActions step s' [.write 0, .write 0] = some t ∧ t.panicked = some .closeOfClosed := by
  have hends : ((runActions step (State.new 1) leavesTwice).map fun s =>
      (s.subscribers.map Prod.fst, (step s (.evict 0)).isSome)) = some ([], true) := by decide
  have hallowed : Allowed step EvictsSubscribed (State.new 1) leavesTwice := by decide
  obtain ⟨s, hrun, hs⟩ := Option.map_eq_some_iff.1 hends
  obtain ⟨hnone, hevict⟩ := Prod.mk.inj hs
  obtain ⟨s', hstep⟩ := Option.isSome_iff_exists.1 hevict
  obtain ⟨-, hquiet, hpanics⟩ := panic_free hrun
  exact ⟨s, s', hrun, hquiet hallowed, hstep, hpanics 0 s' hstep (by simp [hnone])⟩

end CodeStudy.PubSub

import CodeStudy.Cppcoro.FlatRun
import Mathlib.Data.List.Perm.Basic

/-!
# The loop of the scheduler

`schedule` goes over the table of coroutines again and again, and resumes those
that are not dead, until a pass finds none. The bodies yield and return and call
nothing else of the library, so the table stays as it is and each pass meets its
entries in the same order.
-/

namespace CodeStudy.Cppcoro

/-- The machine, how often each body is still going to yield before it returns,
and the coroutines in the order they executed, one entry for each turn. -/
structure World where
  machine : Machine
  yields : Nat → Nat
  ran : List Nat

/-- An entry of the table: an id and the address of the coroutine. -/
abbrev Entry := UInt32 × Nat

namespace World

/-- The coroutine that executes goes on to its next yield, or returns. -/
def turn (w : World) : Option World :=
  match w.machine.executing with
  | .main => none
  | .body c =>
    match w.yields c with
    | 0 => (w.machine.step .ret).map fun m => { w with machine := m, ran := w.ran ++ [c] }
    | n + 1 =>
      (w.machine.step .yield).map fun m =>
        { machine := m, yields := Function.update w.yields c n, ran := w.ran ++ [c] }

/-- The body of the inner loop, and whether it found a coroutine to resume. -/
def visit (w : World) (entry : Entry) : Option (Bool × World) :=
  match w.machine.objects[entry.2]? with
  | none => none
  | some co =>
    if co.state = .dead then some (false, w)
    else
      (w.machine.step (.resume entry.1)).bind fun m =>
        ({ w with machine := m }).turn.map fun w' => (true, w')

def pass (w : World) : List Entry → Option (Bool × World)
  | [] => some (false, w)
  | entry :: entries =>
    (w.visit entry).bind fun visited =>
      (visited.2.pass entries).map fun rest => (visited.1 || rest.1, rest.2)

/-- `fuel` bounds the passes. -/
def schedule (entries : List Entry) : Nat → World → Option World
  | 0, _ => none
  | fuel + 1, w =>
    (w.pass entries).bind fun passed =>
      if passed.1 then schedule entries fuel passed.2 else some passed.2

/-- How often the coroutine is still going to yield, if it is not dead. -/
def remaining (w : World) (c : Nat) : Option Nat :=
  match w.machine.objects[c]? with
  | none => none
  | some co => if co.state = .dead then none else some (w.yields c)

/-- One turn more, and the last one ends the coroutine. -/
def afterTurn : Nat → Option Nat
  | 0 => none
  | n + 1 => some n

/-- The main thread executes, in a run that keeps to the rule. -/
def Idle (w : World) : Prop :=
  w.machine.executing = .main ∧ ∃ resumers, Traced.Kept ⟨w.machine, resumers⟩

variable {w : World} {c : Nat} {co : Coroutine} {id : UInt32}

theorem remaining_eq_none (hget : w.machine.objects[c]? = some co) :
    w.remaining c = none ↔ co.state = .dead := by
  simp [remaining, hget]

theorem remaining_eq_some (hget : w.machine.objects[c]? = some co) (hlive : co.state ≠ .dead) :
    w.remaining c = some (w.yields c) := by
  simp [remaining, hget, hlive]

/-- What the visit of a live coroutine comes to. -/
structure Visited (c : Nat) (w w' : World) : Prop where
  idle : w'.Idle
  table : w'.machine.sched.coroutines = w.machine.sched.coroutines
  ran : w'.ran = w.ran ++ [c]
  remaining : w'.remaining = Function.update w.remaining c ((w.remaining c).bind afterTurn)

/-- The main thread switches to the coroutine, which leaves as `x`. -/
theorem remaining_left (m : Machine) (co' x : Coroutine) (yields : Nat → Nat) (ran : List Nat)
    (hget : m.objects[c]? = some co) (k : Nat) :
    World.remaining ⟨(m.entered c co').left c x, Function.update yields c k, ran⟩ =
      Function.update (World.remaining ⟨m, yields, ran⟩) c
        (if x.state = .dead then none else some k) := by
  have hlt : c < m.objects.length := (List.getElem?_eq_some_iff.mp hget).1
  funext d
  by_cases hd : d = c
  · subst hd
    simp [remaining, Machine.left, Machine.entered, hlt]
  · have hother : ((m.entered c co').left c x).objects[d]? = m.objects[d]? := by
      simp [Machine.left, Machine.entered, List.getElem?_set_ne (Ne.symm hd)]
    rw [Function.update_of_ne hd]
    simp only [remaining, hother, Function.update_of_ne hd]

/-- A coroutine that is not dead executes once and gives control back. -/
theorem visit_live (h : w.Idle) (hget : w.machine.objects[c]? = some co)
    (hlive : co.state ≠ .dead) : ∃ w', w.visit (co.id, c) = some (true, w') ∧ Visited c w w' := by
  obtain ⟨hmain, resumers, hkept⟩ := h
  obtain ⟨co', hid, hresume⟩ : ∃ co' : Coroutine, co'.id = co.id ∧
      w.machine.resume co.id = some (w.machine.entered c co') := by
    obtain ⟨m, hresume, hbody⟩ := hkept.resume_enters hmain hget hlive
    have hflat : w.machine.Flat (.resume co.id) = true := by simp [Machine.Flat, hmain]
    obtain rfl | ⟨-, d, x, co', hx, hid, rfl⟩ := hkept.resume_cases hflat hresume
    · exact absurd (hmain.symm.trans hbody) (by simp)
    · obtain rfl : d = c := Code.body.inj hbody
      obtain rfl := Option.some.inj (hget.symm.trans hx)
      exact ⟨co', hid, hresume⟩
  have hentered := hkept.entered hmain hget hid
  have hexec : (w.machine.entered c co').executing = .body c := rfl
  have hvisit : w.visit (co.id, c) =
      (World.turn ⟨w.machine.entered c co', w.yields, w.ran⟩).map fun w' => (true, w') := by
    simp only [visit, hget, if_neg hlive, Machine.step, hresume, Option.bind_some]
  rw [hvisit]
  cases hyields : w.yields c with
  | zero =>
    obtain ⟨x, hx, hret⟩ := hentered.ret_eq hexec
    have hleft : Traced.Kept ⟨(w.machine.entered c co').left c { x with state := .dead }, _⟩ :=
      hentered.left hexec hx rfl (by simp) (by simp)
    refine ⟨⟨(w.machine.entered c co').left c { x with state := .dead }, w.yields, w.ran ++ [c]⟩, ?_,
      ⟨⟨rfl, _, hleft⟩, rfl, rfl, ?_⟩⟩
    · simp only [turn, hexec, hyields, Machine.step, hret, Option.map_some]
    · have hnext := remaining_left w.machine co' { x with state := .dead } w.yields w.ran hget
        (w.yields c)
      rw [Function.update_eq_self] at hnext
      rw [remaining_eq_some hget hlive, hyields]
      exact hnext
  | succ n =>
    obtain ⟨x, hx, hyield⟩ := hentered.yield_eq hexec
    have hleft : Traced.Kept ⟨(w.machine.entered c co').left c
        { x with state := .suspend, ctx := some (w.machine.entered c co').here }, _⟩ :=
      hentered.left hexec hx rfl (fun _ => rfl) (by simp)
    refine ⟨⟨(w.machine.entered c co').left c
        { x with state := .suspend, ctx := some (w.machine.entered c co').here },
      Function.update w.yields c n, w.ran ++ [c]⟩, ?_, ⟨⟨rfl, _, hleft⟩, rfl, rfl, ?_⟩⟩
    · simp only [turn, hexec, hyields, Machine.step, hyield, Option.map_some]
    · rw [remaining_eq_some hget hlive, hyields]
      exact remaining_left w.machine co' _ w.yields w.ran hget n

theorem Idle.entry (h : w.Idle) (htable : w.machine.sched.coroutines id = some c) :
    ∃ co, w.machine.objects[c]? = some co ∧ co.id = id := by
  obtain ⟨-, resumers, hkept⟩ := h
  obtain ⟨hlt, hid⟩ := (hkept.registered.table id c).mp htable
  refine ⟨w.machine.objects[c], List.getElem?_eq_getElem hlt, ?_⟩
  exact UInt32.toNat_inj.mp ((hkept.registered.ids c _ (List.getElem?_eq_getElem hlt)).trans hid.symm)

theorem visit_eq (h : w.Idle) (htable : w.machine.sched.coroutines id = some c) :
    ∃ w', w.visit (id, c) = some ((w.remaining c).isSome, w') ∧ w'.Idle ∧
      w'.machine.sched.coroutines = w.machine.sched.coroutines ∧
      w'.ran = w.ran ++ [c].filter (fun c => (w.remaining c).isSome) ∧
      w'.remaining = Function.update w.remaining c ((w.remaining c).bind afterTurn) := by
  obtain ⟨co, hget, rfl⟩ := h.entry htable
  by_cases hdead : co.state = .dead
  · have hnone := (remaining_eq_none hget).mpr hdead
    refine ⟨w, ?_, h, rfl, ?_, ?_⟩
    · simp [visit, hget, hdead, hnone]
    · simp [hnone]
    · rw [hnone, Option.bind_none, ← hnone, Function.update_eq_self]
  · obtain ⟨w', hvisit, hvisited⟩ := visit_live h hget hdead
    have hsome := remaining_eq_some hget hdead
    refine ⟨w', ?_, hvisited.idle, hvisited.table, ?_, hvisited.remaining⟩
    · rw [hvisit, hsome]
      rfl
    · rw [hvisited.ran]
      simp [hsome]

/-- A pass gives each coroutine that is not dead one turn. -/
theorem pass_eq {entries : List Entry} (h : w.Idle)
    (htable : ∀ entry ∈ entries, w.machine.sched.coroutines entry.1 = some entry.2)
    (hnodup : (entries.map Prod.snd).Nodup) :
    ∃ w', w.pass entries = some ((entries.map Prod.snd).any fun c => (w.remaining c).isSome, w') ∧
      w'.Idle ∧ w'.machine.sched.coroutines = w.machine.sched.coroutines ∧
      w'.ran = w.ran ++ (entries.map Prod.snd).filter (fun c => (w.remaining c).isSome) ∧
      ∀ c, w'.remaining c =
        if c ∈ entries.map Prod.snd then (w.remaining c).bind afterTurn else w.remaining c := by
  induction entries generalizing w with
  | nil => exact ⟨w, rfl, h, rfl, by simp, by simp⟩
  | cons entry entries ih =>
    obtain ⟨hout, hrest⟩ := List.nodup_cons.mp hnodup
    obtain ⟨w₁, hvisit, hidle, hsame, hran, hremaining⟩ := visit_eq h (htable entry List.mem_cons_self)
    have hother : ∀ c ∈ entries.map Prod.snd, w₁.remaining c = w.remaining c := by
      intro c hc
      have hne : c ≠ entry.2 := fun heq => hout (heq ▸ hc)
      rw [hremaining, Function.update_of_ne hne]
    obtain ⟨w₂, hpass, hidle₂, hsame₂, hran₂, hremaining₂⟩ := ih hidle
      (fun later hlater => hsame ▸ htable later (List.mem_cons_of_mem _ hlater)) hrest
    have hany : ((entries.map Prod.snd).any fun c => (w₁.remaining c).isSome) =
        (entries.map Prod.snd).any fun c => (w.remaining c).isSome := by
      rw [Bool.eq_iff_iff, List.any_eq_true, List.any_eq_true]
      exact exists_congr fun c => and_congr_right fun hc => by rw [hother c hc]
    have hfilter : (entries.map Prod.snd).filter (fun c => (w₁.remaining c).isSome) =
        (entries.map Prod.snd).filter fun c => (w.remaining c).isSome :=
      List.filter_congr fun c hc => by rw [hother c hc]
    refine ⟨w₂, ?_, hidle₂, hsame₂.trans hsame, ?_, ?_⟩
    · have hvisit' : w.visit entry = some ((w.remaining entry.2).isSome, w₁) := hvisit
      simp only [pass, hvisit', Option.bind_some, hpass, Option.map_some, hany, List.map_cons, List.any_cons]
    · rw [hran₂, hran, hfilter, List.append_assoc]
      exact congrArg (w.ran ++ ·) (List.filter_append ..).symm
    · intro c
      rw [hremaining₂, List.map_cons]
      by_cases hc : c ∈ entries.map Prod.snd
      · rw [if_pos hc, if_pos (List.mem_cons_of_mem _ hc), hother c hc]
      · rw [if_neg hc, hremaining]
        by_cases hself : c = entry.2
        · rw [hself, Function.update_self, if_pos List.mem_cons_self]
        · rw [Function.update_of_ne hself, if_neg]
          simp [hself, hc]

/-- `j` of the turns of a coroutine are not its last. -/
def hasTurn (w : World) (j c : Nat) : Bool :=
  (w.remaining c).any fun k => decide (j ≤ k)

theorem schedule_eq {entries : List Entry} {bound : Nat} (h : w.Idle)
    (htable : ∀ entry ∈ entries, w.machine.sched.coroutines entry.1 = some entry.2)
    (hnodup : (entries.map Prod.snd).Nodup)
    (hall : ∀ c, (w.remaining c).isSome → c ∈ entries.map Prod.snd)
    (hbound : ∀ c k, w.remaining c = some k → k < bound) :
    ∃ w', schedule entries (bound + 1) w = some w' ∧ w'.Idle ∧ (∀ c, w'.remaining c = none) ∧
      w'.machine.sched.coroutines = w.machine.sched.coroutines ∧
      w'.ran = w.ran ++ (List.range bound).flatMap fun j =>
        (entries.map Prod.snd).filter fun c => w.hasTurn j c := by
  induction bound generalizing w with
  | zero =>
    have hdead : ∀ c, w.remaining c = none := by
      intro c
      cases hc : w.remaining c with
      | none => rfl
      | some k => exact absurd (hbound c k hc) (Nat.not_lt_zero k)
    obtain ⟨w', hpass, hidle, hsame, hran, hremaining⟩ := pass_eq h htable hnodup
    refine ⟨w', ?_, hidle, ?_, hsame, ?_⟩
    · simp [schedule, hpass, hdead]
    · intro c
      simp [hremaining, hdead]
    · simp [hran, hdead]
  | succ bound ih =>
    obtain ⟨w₁, hpass, hidle, hsame, hran, hremaining⟩ := pass_eq h htable hnodup
    have hlater : ∀ c, w₁.remaining c = (w.remaining c).bind afterTurn := by
      intro c
      rw [hremaining]
      split_ifs with hc
      · rfl
      · cases hnone : w.remaining c with
        | none => rfl
        | some k => exact absurd (hall c (by simp [hnone])) hc
    have hturn : ∀ j c, w₁.hasTurn j c = w.hasTurn (j + 1) c := by
      intro j c
      rw [hasTurn, hasTurn, hlater]
      cases hc : w.remaining c with
      | none => rfl
      | some k =>
        cases k with
        | zero => simp [afterTurn]
        | succ k => simp [afterTurn]
    have hfirst : ∀ c, (w.remaining c).isSome = w.hasTurn 0 c := by
      intro c
      rw [hasTurn]
      cases w.remaining c <;> simp
    obtain ⟨w₂, hschedule, hidle₂, hdead, hsame₂, hran₂⟩ := ih hidle (fun entry hentry => hsame ▸ htable entry hentry)
      (by
        intro c hc
        rw [hlater] at hc
        apply hall
        cases hnone : w.remaining c with
        | none => simp [hnone] at hc
        | some k => rfl)
      (by
        intro c k hk
        rw [hlater] at hk
        cases hc : w.remaining c with
        | none => simp [hc] at hk
        | some n =>
          have hn := hbound c n hc
          cases n with
          | zero => simp [hc, afterTurn] at hk
          | succ n =>
            simp only [hc, Option.bind_some, afterTurn, Option.some.injEq] at hk
            omega)
    have hturns : w₂.ran = w.ran ++ (List.range (bound + 1)).flatMap fun j =>
        (entries.map Prod.snd).filter fun c => w.hasTurn j c := by
      rw [hran₂, hran, List.append_assoc, List.range_succ_eq_map, List.flatMap_cons, List.flatMap_map]
      simp only [hturn, hfirst]
    cases hactive : (entries.map Prod.snd).any fun c => (w.remaining c).isSome with
    | true =>
      refine ⟨w₂, ?_, hidle₂, hdead, hsame₂.trans hsame, hturns⟩
      rw [schedule, hpass, Option.bind_some, hactive]
      exact hschedule
    | false =>
      -- Nothing is left to do, and the passes that are not made would change nothing.
      have hall' : ∀ c, w.remaining c = none := by
        intro c
        cases hc : w.remaining c with
        | none => rfl
        | some k =>
          have hmem := hall c (by simp [hc])
          rw [List.any_eq_false] at hactive
          exact absurd (by simp [hc]) (hactive c hmem)
      refine ⟨w₁, ?_, hidle, ?_, hsame, ?_⟩
      · rw [schedule, hpass, Option.bind_some, hactive]
        rfl
      · intro c
        rw [hlater, hall']
        rfl
      · simp [hran, hasTurn, hall']

end World

/-! ### From the start -/

/-- After the main thread has made `n` coroutines. -/
def created : Nat → Machine
  | 0 => .initial
  | n + 1 => (created n).create

theorem length_created (n : Nat) : (created n).objects.length = n := by
  induction n with
  | zero => rfl
  | succ n ih => simp [created, Machine.create, ih]

theorem created_executing (n : Nat) : (created n).executing = .main := by
  induction n with
  | zero => rfl
  | succ n ih => exact ih

theorem created_ready (n : Nat) : ∀ co ∈ (created n).objects, co.state = .ready := by
  induction n with
  | zero => simp [created, Machine.initial]
  | succ n ih =>
    intro co hco
    simp only [created, Machine.create, List.mem_append, List.mem_singleton] at hco
    obtain hold | rfl := hco
    · exact ih co hold
    · rfl

theorem kept_created {n : Nat} (hn : n < 2 ^ 32) : Traced.Kept ⟨created n, fun _ => none⟩ := by
  induction n with
  | zero => exact Traced.kept_start
  | succ n ih =>
    have hkept := ih (Nat.lt_of_succ_lt hn)
    apply hkept.create
    intro hzero
    have halloc := hkept.registered.allocId
    rw [length_created, hzero] at halloc
    simp only [schedulerId, UInt32.toNat_zero] at halloc
    omega

theorem remaining_created (n : Nat) (yields : Nat → Nat) (c : Nat) :
    World.remaining ⟨created n, yields, []⟩ c = if c < n then some (yields c) else none := by
  unfold World.remaining
  cases hget : (created n).objects[c]? with
  | none =>
    have hout := List.getElem?_eq_none_iff.mp hget
    rw [length_created] at hout
    simp [Nat.not_lt.mpr hout]
  | some co =>
    have hlt := (List.getElem?_eq_some_iff.mp hget).1
    rw [length_created] at hlt
    simp [created_ready n co (List.mem_of_getElem? hget), hlt]

/-- However many coroutines there are and however often each yields, `schedule`
returns, with `bound` passes that resume one and a last one that finds none. All
coroutines are dead then, and each executed once in every pass until it returned,
in the order in which the table is gone over. -/
theorem schedule_roundRobin {n bound : Nat} (hn : n < 2 ^ 32) (yields : Nat → Nat)
    (hbound : ∀ c < n, yields c < bound) {entries : List Entry} (hnodup : entries.Nodup)
    (hentries : ∀ entry, entry ∈ entries ↔ (created n).sched.coroutines entry.1 = some entry.2) :
    ∃ w, World.schedule entries (bound + 1) ⟨created n, yields, []⟩ = some w ∧
      (∀ co ∈ w.machine.objects, co.state = .dead) ∧ w.machine.executing = .main ∧
      w.ran = (List.range bound).flatMap fun j =>
        (entries.map Prod.snd).filter fun c => decide (j ≤ yields c) := by
  have hkept := kept_created hn
  have htable : ∀ id c, (created n).sched.coroutines id = some c ↔ c < n ∧ id.toNat = c + 1 := by
    intro id c
    rw [hkept.registered.table id c, length_created]
  have haddresses : (entries.map Prod.snd).Nodup := by
    apply hnodup.map_on
    rintro ⟨id, c⟩ hid ⟨id', c'⟩ hid' hc
    obtain rfl : c = c' := hc
    have htoNat := ((htable id c).mp ((hentries _).mp hid)).2
    have htoNat' := ((htable id' c).mp ((hentries _).mp hid')).2
    exact Prod.ext (UInt32.toNat_inj.mp (htoNat.trans htoNat'.symm)) rfl
  have hall : ∀ c < n, c ∈ entries.map Prod.snd := by
    intro c hc
    have hid : (UInt32.ofNat (c + 1)).toNat = c + 1 := by
      rw [UInt32.toNat_ofNat']
      omega
    exact List.mem_map.mpr ⟨(UInt32.ofNat (c + 1), c), (hentries _).mpr ((htable _ _).mpr ⟨hc, hid⟩), rfl⟩
  obtain ⟨w, hschedule, hidle, hdead, -, hran⟩ := World.schedule_eq (w := ⟨created n, yields, []⟩)
    ⟨created_executing n, _, hkept⟩ (fun entry hentry => (hentries entry).mp hentry) haddresses
    (by
      intro c hc
      rw [remaining_created] at hc
      split_ifs at hc with hlt
      · exact hall c hlt
      · simp at hc)
    (by
      intro c k hk
      rw [remaining_created] at hk
      split_ifs at hk with hlt
      obtain rfl := Option.some.inj hk
      exact hbound c hlt)
  refine ⟨w, hschedule, ?_, hidle.1, ?_⟩
  · intro co hco
    obtain ⟨c, hget⟩ := List.mem_iff_getElem?.mp hco
    exact (World.remaining_eq_none hget).mp (hdead c)
  · rw [hran, List.nil_append]
    congr 1
    funext j
    apply List.filter_congr
    intro c hc
    obtain ⟨entry, hentry, rfl⟩ := List.mem_map.mp hc
    have hlt := ((htable _ _).mp ((hentries entry).mp hentry)).1
    simp [World.hasTurn, remaining_created, hlt]

/-- The first coroutine yields twice and the second once, and the table is gone
over from the second one on. -/
theorem schedule_roundRobin_two :
    ∃ w, World.schedule [(2, 1), (1, 0)] 4 ⟨created 2, fun c => 2 - c, []⟩ = some w ∧
      w.ran = [1, 0, 1, 0, 0] := by
  have hentries : ∀ entry : Entry, entry ∈ ([(2, 1), (1, 0)] : List Entry) ↔
      (created 2).sched.coroutines entry.1 = some entry.2 := by
    rintro ⟨id, c⟩
    have htable := (kept_created (n := 2) (by decide)).registered.table id c
    rw [length_created] at htable
    rw [htable]
    constructor
    · intro hmem
      simp only [List.mem_cons, Prod.mk.injEq, List.not_mem_nil, or_false] at hmem
      obtain ⟨rfl, rfl⟩ | ⟨rfl, rfl⟩ := hmem <;> decide
    · rintro ⟨hlt, hid⟩
      have hc : c = 0 ∨ c = 1 := by omega
      obtain rfl | rfl := hc
      · have hone : id = 1 := UInt32.toNat_inj.mp hid
        simp [hone]
      · have htwo : id = 2 := UInt32.toNat_inj.mp hid
        simp [htwo]
  obtain ⟨w, hschedule, -, -, hran⟩ := schedule_roundRobin (by decide) (fun c => 2 - c)
    (show ∀ c < 2, 2 - c < 3 by decide) (show ([(2, 1), (1, 0)] : List Entry).Nodup by decide) hentries
  exact ⟨w, hschedule, hran⟩

end CodeStudy.Cppcoro

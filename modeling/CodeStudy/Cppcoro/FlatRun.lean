import CodeStudy.Cppcoro.Scheduler
import Mathlib.Tactic

/-!
# Runs in which only the scheduler resumes

`resume` saves its caller in the one `main_ctx`, so it is meant for the main
thread alone. In a run that keeps to this the scheduler's fields stay in step
with what executes, and each coroutine goes back to where it was resumed.
-/

namespace CodeStudy.Cppcoro

namespace Machine

/-- The coroutine of this id would be switched to by `resume`. -/
def Resumable (m : Machine) (id : UInt32) : Bool :=
  (m.find id).any fun found => found.2.state == .ready || found.2.state == .suspend

/-- The rule of the library for one action: a coroutine is resumed by the main
thread only, and ids are handed out once. -/
def Flat (m : Machine) : Action → Bool
  | .create => m.sched.allocId != schedulerId
  | .resume id => m.executing == .main || !m.Resumable id
  | .yield => true
  | .ret => true

/-- The objects have the ids 1, 2, 3, … in the order they were made, and the
table of coroutines has just these. -/
structure Registered (m : Machine) : Prop where
  allocId : m.sched.allocId.toNat = (m.objects.length + 1) % 2 ^ 32
  room : m.objects.length < 2 ^ 32
  ids : ∀ c co, m.objects[c]? = some co → co.id.toNat = c + 1
  table : ∀ id c, m.sched.coroutines id = some c ↔ c < m.objects.length ∧ id.toNat = c + 1

theorem Registered.find_eq {m : Machine} (h : m.Registered) {id : UInt32} {c : Nat}
    {co : Coroutine} : m.find id = some (c, co) ↔ m.objects[c]? = some co ∧ co.id = id := by
  unfold find
  constructor
  · intro hfind
    obtain ⟨c', htable, hmap⟩ := Option.bind_eq_some_iff.mp hfind
    obtain ⟨co', hget, heq⟩ := Option.map_eq_some_iff.mp hmap
    obtain ⟨rfl, rfl⟩ := Prod.mk.inj heq
    have hid := ((h.table id c').mp htable).2
    exact ⟨hget, UInt32.toNat_inj.mp ((h.ids c' co' hget).trans hid.symm)⟩
  · rintro ⟨hget, rfl⟩
    have hlt : c < m.objects.length := (List.getElem?_eq_some_iff.mp hget).1
    have htable := (h.table co.id c).mpr ⟨hlt, h.ids c co hget⟩
    simp [htable, hget]

theorem Registered.id_ne_schedulerId {m : Machine} (h : m.Registered) {c : Nat}
    {co : Coroutine} (hget : m.objects[c]? = some co) : co.id ≠ schedulerId := by
  intro hid
  have htoNat := h.ids c co hget
  rw [hid] at htoNat
  exact absurd htoNat (by simp [schedulerId])

/-- Rewriting an object without its id and moving `main_ctx` or `running_id`
keeps the table. -/
theorem Registered.set {m : Machine} (h : m.Registered) {c : Nat} {co co' : Coroutine}
    (hget : m.objects[c]? = some co) (hid : co'.id = co.id) {m' : Machine}
    (hobjects : m'.objects = m.objects.set c co')
    (htable : m'.sched.coroutines = m.sched.coroutines)
    (halloc : m'.sched.allocId = m.sched.allocId) : m'.Registered := by
  have hlength : m'.objects.length = m.objects.length := by rw [hobjects, List.length_set]
  refine ⟨?_, ?_, ?_, ?_⟩
  · rw [halloc, hlength]
    exact h.allocId
  · rw [hlength]
    exact h.room
  · intro d x hx
    rw [hobjects] at hx
    by_cases hd : c = d
    · subst hd
      have hlt : c < m.objects.length := (List.getElem?_eq_some_iff.mp hget).1
      rw [List.getElem?_set_self hlt] at hx
      obtain rfl := Option.some.inj hx
      rw [hid]
      exact h.ids c co hget
    · rw [List.getElem?_set_ne hd] at hx
      exact h.ids d x hx
  · intro id d
    rw [htable, hlength]
    exact h.table id d

theorem Registered.create {m : Machine} (h : m.Registered)
    (hflat : m.sched.allocId ≠ schedulerId) : m.create.Registered := by
  have hpos : m.sched.allocId.toNat ≠ 0 := by
    intro hzero
    exact hflat (UInt32.toNat_inj.mp hzero)
  have halloc := h.allocId
  have hroom := h.room
  have hid : m.sched.allocId.toNat = m.objects.length + 1 := by omega
  have hlength : m.create.objects.length = m.objects.length + 1 := by
    simp [Machine.create]
  refine ⟨?_, ?_, ?_, ?_⟩
  · rw [hlength]
    show (m.sched.allocId + 1).toNat = _
    rw [UInt32.toNat_add, hid]
    rfl
  · rw [hlength]
    omega
  · intro c co hget
    simp only [Machine.create] at hget
    by_cases hc : c < m.objects.length
    · rw [List.getElem?_append_left hc] at hget
      exact h.ids c co hget
    · rw [List.getElem?_append_right (by omega)] at hget
      obtain ⟨hlt, heq⟩ := List.getElem?_eq_some_iff.mp hget
      simp only [List.length_singleton] at hlt
      have hc' : c = m.objects.length := by omega
      subst hc'
      simp only [Nat.sub_self, List.getElem_cons_zero] at heq
      rw [← heq]
      exact hid
  · intro id c
    rw [hlength]
    show Function.update m.sched.coroutines m.sched.allocId (some m.objects.length) id = some c ↔ _
    by_cases hnew : id = m.sched.allocId
    · subst hnew
      rw [Function.update_self, Option.some_inj]
      omega
    · rw [Function.update_of_ne hnew, h.table id c]
      have hne : id.toNat ≠ m.objects.length + 1 := by
        intro heq
        exact hnew (UInt32.toNat_inj.mp (heq.trans hid.symm))
      omega

/-- `load` of a context that is still current. -/
theorem load_eq {m : Machine} {saved : Option Context} {ctx : Context} (hsaved : saved = some ctx)
    (h : m.moments ctx.code = ctx.moment) :
    m.load saved =
      some
        { m with
          executing := ctx.code
          moments := Function.update m.moments ctx.code (ctx.moment + 1) } := by
  simp [load, hsaved, h]

/-- After the main thread switched to the coroutine `c`. -/
def entered (m : Machine) (c : Nat) (co : Coroutine) : Machine where
  sched := { m.sched with mainCtx := some m.here, runningId := co.id }
  objects := m.objects.set c { co with state := .running }
  executing := .body c
  moments := Function.update m.moments (.body c) (m.moments (.body c) + 1)

/-- After a coroutine switched back to the main thread, its object left as `co`. -/
def left (m : Machine) (c : Nat) (co : Coroutine) : Machine where
  sched := { m.sched with runningId := schedulerId }
  objects := m.objects.set c co
  executing := .main
  moments := Function.update m.moments .main (m.moments .main + 1)

theorem switchTo_eq {m : Machine} {id : UInt32} {c : Nat} {co : Coroutine} (hid : co.id = id)
    (hctx : co.ctx = some (m.fakeStack c)) :
    m.switchTo id c co = some (m.entered c co) := by
  subst hid
  unfold switchTo
  exact load_eq hctx rfl

end Machine

namespace Traced

/-- Either the main thread executes and no coroutine is named as running, or the
coroutine that executes is, and `main_ctx` holds the place that resumed it. -/
def Turn (t : Traced) : Prop :=
  (t.machine.executing = .main ∧ t.machine.sched.runningId = schedulerId) ∨
    ∃ c co, t.machine.executing = .body c ∧ t.machine.objects[c]? = some co ∧
      t.machine.sched.runningId = co.id ∧
      t.machine.sched.mainCtx = some ⟨.main, t.machine.moments .main⟩ ∧
      t.resumers c = some ⟨.main, t.machine.moments .main⟩

/-- What a flat run keeps true. -/
structure Kept (t : Traced) : Prop where
  registered : t.machine.Registered
  suspended : ∀ c co, t.machine.objects[c]? = some co → co.state = .suspend →
    co.ctx = some (t.machine.fakeStack c)
  running : ∀ c co, t.machine.objects[c]? = some co →
    (co.state = .running ↔ t.machine.executing = .body c)
  turn : t.Turn

theorem kept_start : start.Kept where
  registered :=
    { allocId := by decide
      room := by decide
      ids := by intro c co hget; simp [start, Machine.initial] at hget
      table := by intro id c; simp [start, Machine.initial] }
  suspended := by intro c co hget; simp [start, Machine.initial] at hget
  running := by intro c co hget; simp [start, Machine.initial] at hget
  turn := .inl ⟨rfl, rfl⟩

theorem Kept.create {t : Traced} (h : t.Kept) (hflat : t.machine.sched.allocId ≠ schedulerId) :
    Kept ⟨t.machine.create, t.resumers⟩ := by
  have hnew : ∀ c co, t.machine.create.objects[c]? = some co →
      t.machine.objects[c]? = some co ∨ c = t.machine.objects.length ∧ co.state = .ready := by
    intro c co hget
    simp only [Machine.create, List.getElem?_append] at hget
    split at hget
    · exact .inl hget
    · obtain ⟨hlt, heq⟩ := List.getElem?_eq_some_iff.mp hget
      simp only [List.length_singleton] at hlt
      refine .inr ⟨by omega, ?_⟩
      have hzero : c - t.machine.objects.length = 0 := by omega
      simp only [hzero, List.getElem_cons_zero] at heq
      rw [← heq]
  refine ⟨h.registered.create hflat, ?_, ?_, ?_⟩
  · intro c co hget hstate
    obtain hold | ⟨-, hready⟩ := hnew c co hget
    · exact h.suspended c co hold hstate
    · exact absurd (hready.symm.trans hstate) (by decide)
  · intro c co hget
    obtain hold | ⟨rfl, hready⟩ := hnew c co hget
    · exact h.running c co hold
    · -- no coroutine executes at an address that was just handed out
      have hidle : t.machine.executing ≠ .body t.machine.objects.length := by
        intro hexec
        obtain ⟨hmain, -⟩ | ⟨d, x, hbody, hx, -⟩ := h.turn
        · exact absurd (hmain.symm.trans hexec) (by simp)
        · obtain rfl := Code.body.inj (hbody.symm.trans hexec)
          exact absurd (List.getElem?_eq_some_iff.mp hx).1 (Nat.lt_irrefl _)
      rw [hready]
      exact ⟨fun hrun => absurd hrun (by decide), fun hexec => absurd hexec hidle⟩
  · obtain hmain | ⟨d, x, hbody, hx, hrest⟩ := h.turn
    · exact .inl hmain
    · refine .inr ⟨d, x, hbody, ?_, hrest⟩
      have hlt := (List.getElem?_eq_some_iff.mp hx).1
      show (t.machine.objects ++ _)[d]? = _
      rw [List.getElem?_append_left hlt]
      exact hx

/-- The main thread resumes a coroutine whose context is at hand. -/
theorem Kept.entered {t : Traced} (h : t.Kept) (hmain : t.machine.executing = .main) {c : Nat}
    {co co' : Coroutine} (hget : t.machine.objects[c]? = some co) (hid : co'.id = co.id) :
    Kept ⟨t.machine.entered c co', Function.update t.resumers c (some t.machine.here)⟩ := by
  have hlt : c < t.machine.objects.length := (List.getElem?_eq_some_iff.mp hget).1
  have hid' : ({ co' with state := .running } : Coroutine).id = co.id := hid
  refine ⟨h.registered.set hget hid' rfl rfl rfl, ?_, ?_, ?_⟩
  · intro d x hx hstate
    simp only [Machine.entered] at hx
    by_cases hd : c = d
    · subst hd
      rw [List.getElem?_set_self hlt] at hx
      obtain rfl := Option.some.inj hx
      exact absurd hstate (by simp)
    · rw [List.getElem?_set_ne hd] at hx
      rw [h.suspended d x hx hstate]
      simp [Machine.fakeStack, Machine.entered, Ne.symm hd]
  · intro d x hx
    simp only [Machine.entered] at hx ⊢
    by_cases hd : c = d
    · subst hd
      rw [List.getElem?_set_self hlt] at hx
      obtain rfl := Option.some.inj hx
      simp
    · rw [List.getElem?_set_ne hd] at hx
      rw [h.running d x hx, hmain]
      simp [hd]
  · refine .inr ⟨c, { co' with state := .running }, rfl, List.getElem?_set_self hlt, rfl, ?_, ?_⟩
    · simp [Machine.entered, Machine.here, hmain]
    · simp [Machine.entered, Machine.here, hmain]

/-- The executing coroutine leaves its object suspended at the place it has
reached, or dead, and switches back. -/
theorem Kept.left {t : Traced} (h : t.Kept) {c : Nat} (hexec : t.machine.executing = .body c)
    {co co' : Coroutine} (hget : t.machine.objects[c]? = some co) (hid : co'.id = co.id)
    (hctx : co'.state = .suspend → co'.ctx = some (t.machine.fakeStack c))
    (hstate : co'.state ≠ .running) : Kept ⟨t.machine.left c co', t.resumers⟩ := by
  have hlt : c < t.machine.objects.length := (List.getElem?_eq_some_iff.mp hget).1
  refine ⟨h.registered.set hget hid rfl rfl rfl, ?_, ?_, .inl ⟨rfl, rfl⟩⟩
  · intro d x hx hsuspend
    simp only [Machine.left] at hx
    show x.ctx = some ⟨.body d, _⟩
    simp only [Machine.left, ne_eq, reduceCtorEq, not_false_eq_true, Function.update_of_ne]
    by_cases hd : c = d
    · subst hd
      rw [List.getElem?_set_self hlt] at hx
      obtain rfl := Option.some.inj hx
      exact hctx hsuspend
    · rw [List.getElem?_set_ne hd] at hx
      exact h.suspended d x hx hsuspend
  · intro d x hx
    simp only [Machine.left] at hx ⊢
    by_cases hd : c = d
    · subst hd
      rw [List.getElem?_set_self hlt] at hx
      obtain rfl := Option.some.inj hx
      simp [hstate]
    · rw [List.getElem?_set_ne hd] at hx
      rw [h.running d x hx, hexec]
      simp [hd]

theorem Kept.sane {t : Traced} (h : t.Kept) : t.machine.Sane := by
  refine ⟨h.running, ?_, ?_⟩
  · intro c hexec
    obtain ⟨hmain, -⟩ | ⟨d, co, hbody, hget, hid, -⟩ := h.turn
    · exact absurd (hmain.symm.trans hexec) (by simp)
    · obtain rfl := Code.body.inj (hbody.symm.trans hexec)
      exact ⟨co, hget, hid⟩
  · obtain ⟨hmain, hid⟩ | ⟨d, co, hbody, hget, hid, -⟩ := h.turn
    · exact ⟨fun _ => hmain, fun _ => hid⟩
    · constructor
      · intro hidle
        exact absurd (hid.symm.trans hidle) (h.registered.id_ne_schedulerId hget)
      · intro hmain
        exact absurd (hbody.symm.trans hmain) (by simp)

section Executing

variable {t : Traced} (h : t.Kept) {c : Nat} (hexec : t.machine.executing = .body c)
include h hexec

theorem Kept.turn_of_body : ∃ co, t.machine.objects[c]? = some co ∧
    t.machine.sched.runningId = co.id ∧
    t.machine.sched.mainCtx = some ⟨.main, t.machine.moments .main⟩ ∧
    t.resumers c = some ⟨.main, t.machine.moments .main⟩ := by
  obtain ⟨hmain, -⟩ | ⟨d, co, hbody, hrest⟩ := h.turn
  · exact absurd (hmain.symm.trans hexec) (by simp)
  · obtain rfl := Code.body.inj (hbody.symm.trans hexec)
    exact ⟨co, hrest⟩

/-- A yield of the executing coroutine. -/
theorem Kept.yield_eq : ∃ co, t.machine.objects[c]? = some co ∧
    t.machine.yield =
      some (t.machine.left c { co with state := .suspend, ctx := some t.machine.here }) := by
  obtain ⟨co, hget, hid, hctx, -⟩ := h.turn_of_body hexec
  have hfind := h.registered.find_eq.mpr ⟨hget, rfl⟩
  have hbusy : t.machine.sched.runningId ≠ schedulerId := by
    rw [hid]
    exact h.registered.id_ne_schedulerId hget
  refine ⟨co, hget, ?_⟩
  unfold Machine.yield
  rw [if_neg hbusy, hid, hfind]
  exact Machine.load_eq hctx rfl

/-- The return of the executing coroutine's body. -/
theorem Kept.ret_eq : ∃ co, t.machine.objects[c]? = some co ∧
    t.machine.coroutineEntryEnd c = some (t.machine.left c { co with state := .dead }) := by
  obtain ⟨co, hget, -, hctx, -⟩ := h.turn_of_body hexec
  refine ⟨co, hget, ?_⟩
  unfold Machine.coroutineEntryEnd
  rw [hget]
  exact Machine.load_eq hctx rfl

end Executing

/-- A `resume` under the rule either has no effect or is a switch of the main
thread to a coroutine whose context is at hand. -/
theorem Kept.resume_cases {t : Traced} (h : t.Kept) {id : UInt32}
    (hflat : t.machine.Flat (.resume id)) {m' : Machine} (hstep : t.machine.resume id = some m') :
    m' = t.machine ∨
      t.machine.executing = .main ∧
        ∃ c co co', t.machine.objects[c]? = some co ∧ co'.id = co.id ∧
          m' = t.machine.entered c co' := by
  unfold Machine.resume at hstep
  cases hfind : t.machine.find id with
  | none => simp [hfind] at hstep
  | some found =>
    obtain ⟨c, co⟩ := found
    obtain ⟨hget, rfl⟩ := h.registered.find_eq.mp hfind
    simp only [hfind] at hstep
    have hmain : co.state = .ready ∨ co.state = .suspend → t.machine.executing = .main := by
      intro hstate
      obtain hstate | hstate := hstate <;>
        simpa [Machine.Flat, Machine.Resumable, hfind, hstate] using hflat
    cases hstate : co.state with
    | dead =>
      simp only [hstate, Option.some_inj] at hstep
      exact .inl hstep.symm
    | running =>
      simp only [hstate, Option.some_inj] at hstep
      exact .inl hstep.symm
    | ready =>
      simp only [hstate] at hstep
      have hswitch : t.machine.switchTo co.id c ⟨co.id, some (t.machine.fakeStack c), .ready⟩ =
          some (t.machine.entered c ⟨co.id, some (t.machine.fakeStack c), .ready⟩) :=
        Machine.switchTo_eq rfl rfl
      exact .inr ⟨hmain (.inl hstate), c, co, ⟨co.id, some (t.machine.fakeStack c), .ready⟩, hget,
        rfl, Option.some.inj (hstep.symm.trans hswitch)⟩
    | suspend =>
      simp only [hstate] at hstep
      have hswitch := Machine.switchTo_eq rfl (h.suspended c co hget hstate)
      exact .inr ⟨hmain (.inr hstate), c, co, co, hget, rfl,
        Option.some.inj (hstep.symm.trans hswitch)⟩

/-- What `schedule` relies on: a coroutine that is not dead runs when the main
thread resumes it. -/
theorem Kept.resume_enters {t : Traced} (h : t.Kept) (hmain : t.machine.executing = .main)
    {c : Nat} {co : Coroutine} (hget : t.machine.objects[c]? = some co)
    (hlive : co.state ≠ .dead) :
    ∃ m', t.machine.resume co.id = some m' ∧ m'.executing = .body c := by
  have hfind := h.registered.find_eq.mpr ⟨hget, rfl⟩
  simp only [Machine.resume, hfind]
  cases hstate : co.state with
  | dead => exact absurd hstate hlive
  | running =>
    have hbody := (h.running c co hget).mp hstate
    exact absurd (hmain.symm.trans hbody) (by simp)
  | ready =>
    refine ⟨t.machine.entered c ⟨co.id, some (t.machine.fakeStack c), .ready⟩, ?_, rfl⟩
    exact Machine.switchTo_eq rfl rfl
  | suspend =>
    refine ⟨t.machine.entered c co, ?_, rfl⟩
    simpa only [hstate] using Machine.switchTo_eq rfl (h.suspended c co hget hstate)

theorem Kept.step {t t' : Traced} (h : t.Kept) {a : Action} (hflat : t.machine.Flat a)
    (hstep : t.step a = some t') : t'.Kept := by
  obtain ⟨m', hm', rfl⟩ := Option.map_eq_some_iff.mp hstep
  cases a with
  | create =>
    obtain rfl := Option.some.inj hm'
    exact h.create (by simpa [Machine.Flat] using hflat)
  | resume id =>
    obtain rfl | ⟨hmain, c, co, co', hget, hid, rfl⟩ := h.resume_cases hflat hm'
    · have hsame : t.resumersAfter t.machine (.resume id) = t.resumers := by
        unfold resumersAfter
        cases hexec : t.machine.executing <;> simp
      rw [hsame]
      exact h
    · have hnote : t.resumersAfter (t.machine.entered c co') (.resume id) =
          Function.update t.resumers c (some t.machine.here) := by
        simp [resumersAfter, Machine.entered, hmain]
      rw [hnote]
      exact h.entered hmain hget hid
  | yield =>
    cases hexec : t.machine.executing with
    | main =>
      have hidle := h.sane.scheduler.mpr hexec
      have heq : t.machine = m' := by
        simpa [Machine.step, Machine.yield, hidle] using hm'
      subst heq
      exact h
    | body c =>
      obtain ⟨co, hget, heq⟩ := h.yield_eq hexec
      obtain rfl := Option.some.inj (heq.symm.trans hm')
      refine h.left hexec hget rfl ?_ (by simp)
      intro _
      simp [Machine.here, Machine.fakeStack, hexec]
  | ret =>
    cases hexec : t.machine.executing with
    | main => simp [Machine.step, hexec] at hm'
    | body c =>
      obtain ⟨co, hget, heq⟩ := h.ret_eq hexec
      simp only [Machine.step, hexec] at hm'
      obtain rfl := Option.some.inj (heq.symm.trans hm')
      exact h.left hexec hget rfl (by simp) (by simp)

theorem Kept.goesBack {t : Traced} (h : t.Kept) : t.GoesBack := by
  intro c hexec a ha
  obtain ⟨-, -, -, -, hresumer⟩ := h.turn_of_body hexec
  have hleft : ∀ co, (t.machine.left c co).here = ⟨.main, t.machine.moments .main + 1⟩ := by
    intro co
    simp [Machine.here, Machine.left]
  obtain rfl | rfl := ha
  · obtain ⟨co, -, heq⟩ := h.yield_eq hexec
    exact ⟨_, _, heq, hresumer, hleft _⟩
  · obtain ⟨co, -, heq⟩ := h.ret_eq hexec
    exact ⟨_, _, by simpa [Machine.step, hexec] using heq, hresumer, hleft _⟩

/-- Every action of the run keeps to the rule where it is taken. -/
def FlatAlong (t : Traced) : List Action → Bool
  | [] => true
  | a :: as => t.machine.Flat a && (t.step a).all fun t' => t'.FlatAlong as

theorem Kept.run {t t' : Traced} (h : t.Kept) {as : List Action} (hflat : t.FlatAlong as)
    (hrun : t.run as = some t') : t'.Kept := by
  induction as generalizing t with
  | nil =>
    obtain rfl := Option.some.inj hrun
    exact h
  | cons a as ih =>
    obtain ⟨t₁, hstep, hrest⟩ := Option.bind_eq_some_iff.mp hrun
    simp only [FlatAlong, hstep, Option.all_some, Bool.and_eq_true] at hflat
    exact ih (h.step hflat.1 hstep) hflat.2 hrest

/-- In a run whose actions keep to the rule every state reached is sane, and a
coroutine that yields or returns goes back to where it was resumed. -/
theorem sane_of_flatAlong (as : List Action) (t : Traced) (hflat : start.FlatAlong as)
    (hrun : start.run as = some t) : t.machine.Sane ∧ t.GoesBack :=
  have h := kept_start.run hflat hrun
  ⟨h.sane, h.goesBack⟩

/-- Two coroutines: the first yields once, makes a third and resumes itself. -/
def flatExample : List Action :=
  [.create, .create, .resume 1, .yield, .resume 2, .ret, .resume 1, .create, .resume 1, .resume 2]

theorem sane_of_flatAlong_flatExample :
    ∃ t, start.run flatExample = some t ∧ t.machine.Sane ∧ t.GoesBack := by
  have hrun : (start.run flatExample).isSome = true := by decide
  obtain ⟨t, ht⟩ := Option.isSome_iff_exists.mp hrun
  exact ⟨t, ht, sane_of_flatAlong flatExample t (by decide) ht⟩

/-- The first coroutine resumes the second. -/
def nestedExample : List Action := [.create, .create, .resume 1, .resume 2]

/-- Both coroutines are then in state `running`, and when the second yields,
`running_id` is `SCHEDULER_ID` while the first executes. -/
theorem not_sane_nestedExample :
    (∃ t, start.run nestedExample = some t ∧ ¬ t.machine.Sane) ∧
      ∃ t, start.run (nestedExample ++ [.yield]) = some t ∧ ¬ t.machine.Sane := by
  constructor
  · have hrun : (start.run nestedExample).any (fun t =>
        t.machine.objects == [⟨1, some ⟨.body 0, 0⟩, .running⟩, ⟨2, some ⟨.body 1, 0⟩, .running⟩]) =
          true := by decide
    obtain ⟨t, ht, hobjects⟩ := (Option.any_eq_true _ _).mp hrun
    refine ⟨t, ht, ?_⟩
    intro hsane
    have hobjects' := eq_of_beq hobjects
    have h₀ := (hsane.running 0 _ (by rw [hobjects']; rfl)).mp rfl
    have h₁ := (hsane.running 1 _ (by rw [hobjects']; rfl)).mp rfl
    exact absurd (Code.body.inj (h₀.symm.trans h₁)) (by decide)
  · have hrun : (start.run (nestedExample ++ [.yield])).any (fun t =>
        t.machine.executing == .body 0 && t.machine.sched.runningId == schedulerId) = true := by
      decide
    obtain ⟨t, ht, hstate⟩ := (Option.any_eq_true _ _).mp hrun
    refine ⟨t, ht, ?_⟩
    intro hsane
    simp only [Bool.and_eq_true, beq_iff_eq] at hstate
    have hmain := hsane.scheduler.mp hstate.2
    exact absurd (hstate.1.symm.trans hmain) (by decide)

end Traced

end CodeStudy.Cppcoro

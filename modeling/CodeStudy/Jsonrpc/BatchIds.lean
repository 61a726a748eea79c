import CodeStudy.Jsonrpc.Batch

/-!
# Responses by id

`BatchResponse` keeps two maps from ids to indices. Pushing the responses of a
batch whose ids are distinct, the maps hold for each id the index of its
response, in the first if it has a result and else in the second.
-/

namespace CodeStudy.Jsonrpc

/-- A `std::map` tells the ids apart as they are. Beyond them it may not: the
library compares -1 and 18446744073709551615 as signed integers of 64 bits. -/
def Library.KeysApart (lib : Library) : Prop :=
  ∀ a b, IsKey a → IsKey b → (lib.sameKey a b = true ↔ a = b)

namespace BatchResponse

variable {lib : Library}

/-- The responses pushed so far, with the ids they have. -/
structure Indexed (ids vs : List Json) (b : BatchResponse) : Prop where
  response : b.response = vs
  length : ids.length = vs.length
  result : ∀ i id v, ids[i]? = some id → vs[i]? = some v → (v.find "result").isSome = true →
    b.results id = some i
  error : ∀ i id v, ids[i]? = some id → vs[i]? = some v → (v.find "result").isSome = false →
    b.results id = none ∧ b.errors id = some i
  fresh : ∀ key, IsKey key → key ∉ ids → b.results key = none ∧ b.errors key = none

theorem isKey_validIdNotNull {id v : Json} (hid : v.find "id" = some id) (hkey : IsKey id) :
    validIdNotNull v = true := by
  unfold validIdNotNull
  rw [hid]
  obtain ⟨n, rfl, -⟩ | ⟨s, rfl⟩ := hkey <;> rfl

/-- A response with a result goes into the first map, another into the second. -/
theorem push_eq {id v : Json} (b : BatchResponse) (h : IsResponse id v) (hkey : IsKey id) :
    push lib b v =
      if (v.find "result").isSome then
        { b with
          response := b.response ++ [v], results := assign lib b.results id b.response.length }
      else
        { b with
          response := b.response ++ [v], errors := assign lib b.errors id b.response.length } := by
  have hvalid := isKey_validIdNotNull h.id hkey
  unfold push
  simp only [h.id, hvalid, true_and]
  by_cases hresult : (v.find "result").isSome = true
  · simp [hresult]
  · have herror : (v.find "error").isSome = true := by
      have houtcome := h.outcome
      simp only [Bool.not_eq_true] at hresult
      rw [hresult] at houtcome
      simpa using houtcome
    simp [hresult, herror]

theorem assign_self (hkeys : lib.KeysApart) {id : Json} (hkey : IsKey id)
    (index : Json → Option Nat) (i : Nat) : assign lib index id i id = some i := by
  have hsame : lib.sameKey id id = true := (hkeys id id hkey hkey).mpr rfl
  simp [assign, hsame]

theorem assign_of_ne (hkeys : lib.KeysApart) {id key : Json} (hid : IsKey id) (hkey : IsKey key)
    (hne : id ≠ key) (index : Json → Option Nat) (i : Nat) :
    assign lib index id i key = index key := by
  have hsame : ¬lib.sameKey id key = true := fun h => hne ((hkeys id key hid hkey).mp h)
  simp [assign, hsame]

theorem Indexed.push {ids vs : List Json} {b : BatchResponse} (hb : Indexed ids vs b)
    (hkeys : lib.KeysApart) (hids : ∀ x ∈ ids, IsKey x) {id v : Json} (hv : IsResponse id v)
    (hkey : IsKey id) (hnew : id ∉ ids) :
    Indexed (ids ++ [id]) (vs ++ [v]) (push lib b v) := by
  have hlength : b.response.length = vs.length := by rw [hb.response]
  have hold : ∀ i x y, (ids ++ [id])[i]? = some x → (vs ++ [v])[i]? = some y →
      ids[i]? = some x ∧ vs[i]? = some y ∧ x ∈ ids ∨ i = vs.length ∧ x = id ∧ y = v := by
    intro i x y hx hy
    by_cases hi : i < ids.length
    · rw [List.getElem?_append_left hi] at hx
      rw [List.getElem?_append_left (by rw [← hb.length]; exact hi)] at hy
      exact .inl ⟨hx, hy, List.mem_of_getElem? hx⟩
    · have hi' : i = ids.length := by
        have hlt := (List.getElem?_eq_some_iff.mp hx).1
        simp only [List.length_append, List.length_singleton] at hlt
        omega
      subst hi'
      have hy' : y = v := by
        rw [hb.length] at hy
        simpa using hy.symm
      exact .inr ⟨hb.length, by simpa using hx.symm, hy'⟩
  have hne : ∀ x, x ∈ ids → id ≠ x := by
    rintro x hx rfl
    exact hnew hx
  rw [push_eq b hv hkey]
  by_cases hresult : (v.find "result").isSome = true
  · rw [if_pos hresult]
    refine ⟨by simp [hb.response], by simp [hb.length], ?_, ?_, ?_⟩
    · intro i x y hx hy hsome
      obtain ⟨hx', hy', hmem⟩ | ⟨rfl, rfl, rfl⟩ := hold i x y hx hy
      · show assign lib b.results id b.response.length x = some i
        rw [assign_of_ne hkeys hkey (hids x hmem) (hne x hmem)]
        exact hb.result i x y hx' hy' hsome
      · show assign lib b.results x b.response.length x = some vs.length
        rw [assign_self hkeys hkey, hlength]
    · intro i x y hx hy hnone
      obtain ⟨hx', hy', hmem⟩ | ⟨rfl, rfl, rfl⟩ := hold i x y hx hy
      · show assign lib b.results id b.response.length x = none ∧ b.errors x = some i
        rw [assign_of_ne hkeys hkey (hids x hmem) (hne x hmem)]
        exact hb.error i x y hx' hy' hnone
      · exact absurd (hresult.symm.trans hnone) (by simp)
    · intro key hkey' hmem
      obtain ⟨hmem', hne'⟩ : key ∉ ids ∧ key ≠ id := by simpa using hmem
      show assign lib b.results id b.response.length key = none ∧ b.errors key = none
      rw [assign_of_ne hkeys hkey hkey' (Ne.symm hne')]
      exact hb.fresh key hkey' hmem'
  · rw [if_neg hresult]
    refine ⟨by simp [hb.response], by simp [hb.length], ?_, ?_, ?_⟩
    · intro i x y hx hy hsome
      obtain ⟨hx', hy', hmem⟩ | ⟨rfl, rfl, rfl⟩ := hold i x y hx hy
      · exact hb.result i x y hx' hy' hsome
      · exact absurd hsome hresult
    · intro i x y hx hy hnone
      obtain ⟨hx', hy', hmem⟩ | ⟨rfl, rfl, rfl⟩ := hold i x y hx hy
      · show b.results x = none ∧ assign lib b.errors id b.response.length x = some i
        rw [assign_of_ne hkeys hkey (hids x hmem) (hne x hmem)]
        exact hb.error i x y hx' hy' hnone
      · show b.results x = none ∧ assign lib b.errors x b.response.length x = some vs.length
        rw [assign_self hkeys hkey, hlength]
        exact ⟨(hb.fresh x hkey hnew).1, rfl⟩
    · intro key hkey' hmem
      obtain ⟨hmem', hne'⟩ : key ∉ ids ∧ key ≠ id := by simpa using hmem
      show b.results key = none ∧ assign lib b.errors id b.response.length key = none
      rw [assign_of_ne hkeys hkey hkey' (Ne.symm hne')]
      exact hb.fresh key hkey' hmem'

theorem Indexed.foldl (hkeys : lib.KeysApart) {ids vs : List Json}
    (h : List.Forall₂ IsResponse ids vs) {ids₀ vs₀ : List Json} {b : BatchResponse}
    (hb : Indexed ids₀ vs₀ b) (hids : ∀ x ∈ ids₀ ++ ids, IsKey x) (hnodup : (ids₀ ++ ids).Nodup) :
    Indexed (ids₀ ++ ids) (vs₀ ++ vs) (vs.foldl (BatchResponse.push lib) b) := by
  induction h generalizing ids₀ vs₀ b with
  | nil => simpa using hb
  | @cons id v ids vs hv _ ih =>
    have hnew : id ∉ ids₀ := by
      intro hmem
      exact (List.nodup_append.mp hnodup).2.2 id hmem id List.mem_cons_self rfl
    have hb' := hb.push hkeys (fun x hx => hids x (List.mem_append_left _ hx)) hv
      (hids id (by simp)) hnew
    have hnext := ih hb' (by simpa using hids) (by simpa using hnodup)
    simpa using hnext

theorem Indexed.get {ids vs : List Json} {b : BatchResponse} (hb : Indexed ids vs b) {i : Nat}
    {id v : Json} (hid : ids[i]? = some id) (hv : vs[i]? = some v) :
    b.get lib id = outcomeOf v := by
  have hgetD : b.response.getD i .null = v := by
    rw [hb.response, List.getD_eq_getElem?_getD, hv]
    rfl
  unfold BatchResponse.get outcomeOf
  cases hresult : v.find "result" with
  | some result =>
    have hfound := hb.result i id v hid hv (by simp [hresult])
    simp only [hfound, hgetD, hresult, Option.getD_some]
  | none =>
    obtain ⟨hnone, hfound⟩ := hb.error i id v hid hv (by simp [hresult])
    simp only [hnone, hfound, hgetD]

/-- Each response is found under its id. -/
theorem get_ofResponse (hkeys : lib.KeysApart) {ids vs : List Json}
    (h : List.Forall₂ IsResponse ids vs) (hids : ∀ x ∈ ids, IsKey x) (hnodup : ids.Nodup) :
    List.Forall₂ (fun id v => (ofResponse lib vs).get lib id = outcomeOf v) ids vs := by
  have hstart : Indexed [] [] ⟨[], fun _ => none, fun _ => none, []⟩ := by
    refine ⟨rfl, rfl, ?_, ?_, fun _ _ _ => ⟨rfl, rfl⟩⟩
    · intro i id v hid
      simp at hid
    · intro i id v hid
      simp at hid
  have hb := Indexed.foldl hkeys h hstart (by simpa using hids) (by simpa using hnodup)
  refine List.forall₂_iff_get.mpr ⟨h.length_eq, ?_⟩
  intro i hi hi'
  apply hb.get (i := i)
  · simp
  · simp

end BatchResponse

end CodeStudy.Jsonrpc

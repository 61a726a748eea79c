import CodeStudy.Samba.ShareResponse

/-!
# The fragments of a share enumeration

A response comes in fragments, each with a header that is cut off. The length of the bytes put together
is not reset for another response: then the second fragment is put as far behind the first as the responses
before were long, and what is between is whatever was in memory.
-/

namespace CodeStudy.Samba

/-- A fragment on the pipe. -/
structure Fragment where
  header : Block 24
  stub : Bytes

namespace Fragment

def IsLast (f : Fragment) : Prop := f.header.1.getD 3 0 &&& rpcFlagLastFrag ≠ 0

instance (f : Fragment) : Decidable f.IsLast := inferInstanceAs (Decidable (_ ≠ _))

/-- The reply that delivers a fragment. -/
def reply (f : Fragment) : PipeReply := { status := NtStatus.success, data := f.header.1 ++ f.stub }

theorem length_reply (f : Fragment) : f.reply.data.length = 24 + f.stub.length := by
  rw [reply, List.length_append, f.header.2]

end Fragment

/-- The fragments of a response; the last one is marked. -/
inductive FragmentsOf : Bytes → List Fragment → Prop
  | last {f : Fragment} : f.IsLast → FragmentsOf f.stub [f]
  | cons {f : Fragment} {stub : Bytes} {fragments : List Fragment} : ¬ f.IsLast → FragmentsOf stub fragments →
      FragmentsOf (f.stub ++ stub) (f :: fragments)

/-- The fragments are not longer than the buffers of the client, and a short one does not end in front of the
status that the client takes it for. -/
def Sized (maxRecvFrag : Nat) : List Fragment → Prop
  | [] => False
  | f :: others =>
      (24 + f.stub.length ≤ 64 * 1024 ∧ 4 ≤ f.stub.length) ∧
        ∀ g ∈ others, 24 + g.stub.length ≤ maxRecvFrag ∧ (4 ≤ g.stub.length ∨ 28 ≤ maxRecvFrag)

/-- No fragment is so short that it stands for an error. -/
def Long (fragments : List Fragment) : Prop := ∀ f ∈ fragments, 8 < f.stub.length

theorem long_cons {f : Fragment} {fragments : List Fragment} :
    Long (f :: fragments) ↔ 8 < f.stub.length ∧ Long fragments :=
  List.forall_mem_cons

theorem FragmentsOf.length_pos {stub : Bytes} {fragments : List Fragment} (h : FragmentsOf stub fragments) :
    0 < fragments.length := by
  cases h with
  | last => exact Nat.zero_lt_succ _
  | cons => exact Nat.zero_lt_succ _

theorem FragmentsOf.length_le {stub : Bytes} {f : Fragment} {others : List Fragment}
    (h : FragmentsOf stub (f :: others)) : f.stub.length ≤ stub.length := by
  cases h with
  | last hlast => exact le_rfl
  | cons hmore hrest =>
      rw [List.length_append]
      omega

theorem FragmentsOf.length_lt {stub : Bytes} {fragments : List Fragment} (h : FragmentsOf stub fragments)
    (hlong : Long fragments) : 8 < stub.length := by
  cases h with
  | @last f hlast => exact hlong f (List.mem_singleton_self f)
  | @cons f stub fragments hmore hrest =>
      have hf := (long_cons.mp hlong).1
      rw [List.length_append]
      omega

/-! ### The header of a fragment -/

theorem succeedsWhere_describe {α : Type} {before after : String} {x : Except Fault α} {condition : Prop}
    {post : α → Prop} (h : SucceedsWhere x condition post) :
    SucceedsWhere (describe before after x) condition post := by
  rcases h with ⟨hcondition, a, rfl, ha⟩ | ⟨hcondition, ret, msg, rfl⟩
  · exact Or.inl ⟨hcondition, a, rfl, ha⟩
  · exact Or.inr ⟨hcondition, -1, _, rfl⟩

/-- The flags of a fragment, unless it is so short that it is taken for an error. -/
theorem succeedsWhere_operationResponse {f : Fragment} {buffer rest : Bytes} {bufLen : Nat}
    (hbuffer : buffer = f.header.1 ++ rest) (hheader : 24 ≤ bufLen) (hlt : bufLen < 2 ^ 32)
    (hstatus : 28 ≤ buffer.length ∨ 32 < bufLen) :
    SucceedsWhere (dcerpcParseOperationResponse buffer bufLen) (32 < bufLen) fun flags =>
      flags = f.header.1.getD 3 0 := by
  have hcopy : (View.of buffer).copy 0 24 = .ok f.header := View.copy_eq [] f.header.1 rest hbuffer rfl f.header.2
  rw [dcerpcParseOperationResponse, if_neg (by omega), hcopy, ok_bind, sub32_eq hheader hlt]
  by_cases hlong : 32 < bufLen
  · rw [if_neg (by omega)]
    refine (?_ : SucceedsWhere _ True _).congr (iff_of_true trivial hlong)
    exact .ok rfl
  · rw [if_pos (by omega)]
    rcases definedWhere_copy buffer 24 4 with ⟨-, status, hread, -⟩ | ⟨hout, -⟩
    · rw [hread, ok_bind]
      exact .failed hlong
    · exact absurd (hstatus.resolve_right hlong) hout

/-! ### Putting fragments together -/

section

variable {env : ShareEnumEnv} {maxRecvFrag buffLen : Nat} {buff stub : Bytes} {rest : List PipeReply}

/-- A fragment is put at the counted length, behind what memory has after the bytes there are. -/
theorem write_realloc (hbuff : buff.length ≤ buffLen) (part : Bytes) :
    ∃ gap, gap.length = buffLen - buff.length ∧
      GrowBuffer.write (some (realloc env.junk buff (buffLen + part.length))) buffLen part =
        .ok (some (buff ++ gap ++ part)) := by
  set junk := env.junk (buffLen + part.length) with hjunk
  have hlength : junk.1.length = buffLen + part.length := junk.2
  refine ⟨junk.1.take (buffLen - buff.length), by rw [List.length_take]; omega, ?_⟩
  have hrealloc : (realloc env.junk buff (buffLen + part.length)).length = buffLen + part.length := by
    rw [realloc, List.length_take, List.length_append, ← hjunk]
    omega
  have htake : (realloc env.junk buff (buffLen + part.length)).take buffLen =
      buff ++ junk.1.take (buffLen - buff.length) := by
    rw [realloc, List.take_take, Nat.min_eq_left (by omega), List.take_append, List.take_of_length_le hbuff]
  have hdrop : (realloc env.junk buff (buffLen + part.length)).drop (buffLen + part.length) = [] := by
    rw [List.drop_eq_nil_iff]
    omega
  rw [GrowBuffer.write, if_pos (by omega), memcpy, htake, hdrop, List.append_nil]

/-- One more fragment. -/
theorem succeedsWhere_readFragments_cons (f : Fragment) (replies : List PipeReply) (condition : Prop)
    {post : Bytes × Nat × List PipeReply → Prop} (hbuff : buff.length ≤ buffLen)
    (hfits : 24 + f.stub.length ≤ maxRecvFrag) (hsized : 4 ≤ f.stub.length ∨ 28 ≤ maxRecvFrag)
    (hheader : 24 ≤ buffLen) (hlt : buffLen + f.stub.length < 2 ^ 32)
    (hnext : ∀ gap, gap.length = buffLen - buff.length →
      SucceedsWhere (if f.IsLast then .ok (buff ++ gap ++ f.stub, buffLen + f.stub.length, replies)
        else readFragments env maxRecvFrag (buff ++ gap ++ f.stub) (buffLen + f.stub.length) replies) condition post) :
    SucceedsWhere (readFragments env maxRecvFrag buff buffLen (f.reply :: replies))
      (8 < f.stub.length ∧ condition) post := by
  have hlength := f.length_reply
  set zeros := List.replicate (maxRecvFrag - f.reply.data.length) (0 : UInt8) with hzeros
  have hdata : f.reply.data ++ zeros = f.header.1 ++ (f.stub ++ zeros) := List.append_assoc ..
  have hbufferLength : (f.reply.data ++ zeros).length = maxRecvFrag := by
    rw [List.length_append, hzeros, List.length_replicate]
    omega
  have hflags := @succeedsWhere_operationResponse f _ _ f.reply.data.length hdata (by omega) (by omega)
    (by omega)
  have hsub : sub32 f.reply.data.length 24 = f.stub.length := by
    rw [hlength, sub32_eq (by omega) (by omega)]
    omega
  have hcopy : (View.of (f.reply.data ++ zeros)).copy 24 (sub32 f.reply.data.length 24) =
      .ok ⟨f.stub, hsub.symm⟩ := by
    apply View.copy_eq f.header.1 f.stub zeros _ f.header.2
    rw [List.append_assoc]
    exact hdata
  have hadd : add32 buffLen f.stub.length = buffLen + f.stub.length := add32_eq (by omega)
  have hstatus : ¬ (f.reply.status ≠ NtStatus.success ∧ f.reply.status ≠ NtStatus.endOfFile) :=
    fun h => h.1 rfl
  obtain ⟨gap, hgap, hwrite⟩ := @write_realloc env buffLen buff hbuff f.stub
  rw [readFragments, if_neg (by omega), if_neg hstatus, if_neg (by omega)]
  simp only [← hzeros]
  refine ((succeedsWhere_describe hflags).bind fun _ flags hequal => ?_).congr (and_congr_left fun _ => by rw [hlength]; omega)
  rw [hequal, hcopy, ok_bind]
  simp only [hsub, hadd, hwrite, ok_bind, Option.getD_some]
  exact hnext gap hgap

/-- All fragments of a response. -/
theorem succeedsWhere_readFragments {fragments : List Fragment} (hfragments : FragmentsOf stub fragments)
    (hbuff : buff.length ≤ buffLen)
    (hsized : ∀ f ∈ fragments, 24 + f.stub.length ≤ maxRecvFrag ∧ (4 ≤ f.stub.length ∨ 28 ≤ maxRecvFrag))
    (hheader : 24 ≤ buffLen) (hlt : buffLen + stub.length < 2 ^ 32) :
    SucceedsWhere (readFragments env maxRecvFrag buff buffLen (fragments.map Fragment.reply ++ rest))
      (Long fragments) fun out => ∃ gap, gap.length = buffLen - buff.length ∧
        out = (buff ++ gap ++ stub, buffLen + stub.length, rest) := by
  induction hfragments generalizing buff buffLen with
  | @last f hlast =>
      obtain ⟨hfits, hshort⟩ := hsized f (List.mem_singleton_self f)
      refine (succeedsWhere_readFragments_cons f rest True hbuff hfits hshort hheader hlt fun gap hgap => ?_).congr ?_
      · rw [if_pos hlast]
        exact .ok ⟨gap, hgap, rfl⟩
      · rw [and_true, Long, List.forall_mem_singleton]
  | @cons f stub fragments hmore hrest ih =>
      rw [List.length_append] at hlt
      obtain ⟨hfits, hshort⟩ := hsized f (List.mem_cons_self ..)
      refine (succeedsWhere_readFragments_cons f _ (Long fragments) hbuff hfits hshort hheader (by omega)
        fun gap hgap => ?_).congr long_cons.symm
      rw [if_neg hmore]
      have hwhole : (buff ++ gap ++ f.stub).length = buffLen + f.stub.length := by
        rw [List.length_append, List.length_append, hgap]
        omega
      refine (ih hwhole.le (fun g hg => hsized g (List.mem_cons_of_mem _ hg)) (by omega) (by omega)).mono ?_
      -- Only the first of these fragments is put behind a gap.
      rintro - _ ⟨gap', hgap', rfl⟩
      have hnil : gap' = [] := by
        rw [hwhole, Nat.sub_self] at hgap'
        exact List.length_eq_zero_iff.mp hgap'
      refine ⟨gap, hgap, ?_⟩
      rw [hnil, List.append_nil, List.append_assoc, List.length_append, Nat.add_assoc]

end

/-! ### A response put together -/

/-- The response up to the number of all shares is in one piece, and the status is at the end. -/
def ServerResponse.LiesIn (r : ServerResponse) (payload : Bytes) : Prop :=
  ∃ behind, payload = r.front ++ behind ++ leBytes 4 0 ∧ 4 ≤ behind.length

/-- The first of several fragments has everything up to the number of all shares. -/
def FrontFirst (r : ServerResponse) : List Fragment → Prop
  | f :: _ :: _ => r.front.length ≤ f.stub.length
  | _ => False

theorem FrontFirst.front_le {r : ServerResponse} {f : Fragment} {others : List Fragment}
    (h : FrontFirst r (f :: others)) : r.front.length ≤ f.stub.length := by
  cases others with
  | nil => cases h
  | cons g others => exact h

section

variable {env : ShareEnumEnv} {maxRecvFrag kept : Nat} {r : ServerResponse} {rest : List PipeReply}

theorem liesIn_stub (r : ServerResponse) : r.LiesIn r.stub := by
  refine ⟨leBytes 4 r.resumeHandlePtr.toNat ++ r.resumeHandle.elim [] (fun handle => leBytes 4 handle.toNat), ?_, ?_⟩
  · rw [stub_eq_front, ServerResponse.behind, List.append_assoc r.front]
  · rw [List.length_append, length_leBytes]
    omega

/-- The gap is behind everything that is read. -/
theorem liesIn_of_front {part others : Bytes} (gap : Bytes) (hstub : r.stub = part ++ others)
    (hfront : r.front.length ≤ part.length) (hothers : 8 < others.length) : r.LiesIn (part ++ gap ++ others) := by
  obtain ⟨behind, hbehind, -⟩ := liesIn_stub r
  obtain ⟨middle, hpart⟩ : r.front <+: part := by
    apply List.prefix_of_prefix_length_le _ (hstub ▸ List.prefix_append part others) hfront
    rw [stub_eq_front]
    exact List.prefix_append ..
  obtain ⟨last, hlast⟩ : leBytes 4 0 <:+ others := by
    apply List.suffix_of_suffix_length_le _ (hstub ▸ List.suffix_append part others)
    · rw [length_leBytes]
      omega
    · rw [hbehind]
      exact List.suffix_append ..
  refine ⟨middle ++ gap ++ last, ?_, ?_⟩
  · rw [← hpart, ← hlast]
    simp only [List.append_assoc]
  · rw [← hlast, List.length_append, length_leBytes] at hothers
    rw [List.length_append]
    omega

/-- The fragments of a response behind the header of the first, when so many bytes were counted before. -/
theorem succeedsWhere_gather {f : Fragment} {others : List Fragment} (hfragments : FragmentsOf r.stub (f :: others))
    (hsized : Sized maxRecvFrag (f :: others)) (hkept : kept = 0 ∨ FrontFirst r (f :: others))
    (hlt : kept + (24 + r.stub.length) < 2 ^ 32) :
    SucceedsWhere (if f.IsLast then .ok (f.reply.data, kept + (24 + f.stub.length), others.map Fragment.reply ++ rest)
        else readFragments env maxRecvFrag f.reply.data (kept + (24 + f.stub.length))
          (others.map Fragment.reply ++ rest))
      (Long others) fun out => ∃ payload, r.LiesIn payload ∧ payload.length = kept + r.stub.length ∧
        out = (f.header.1 ++ payload, kept + (24 + r.stub.length), rest) := by
  have hlies := liesIn_stub r
  generalize hstub : r.stub = stub at hfragments hlt hlies
  cases hfragments with
  | last hlast =>
      obtain rfl : kept = 0 := hkept.resolve_right fun h => h
      rw [if_pos hlast]
      refine (SucceedsWhere.ok ⟨f.stub, hlies, (Nat.zero_add _).symm, rfl⟩).congr (iff_of_true trivial ?_)
      exact List.forall_mem_nil _
  | @cons _ stub _ hmore hrest =>
      rw [List.length_append] at hlt
      rw [if_neg hmore]
      have hlength := f.length_reply
      refine (succeedsWhere_readFragments hrest (by omega) hsized.2 (by omega) (by omega)).mono ?_
      rintro hlong _ ⟨gap, hgap, rfl⟩
      refine ⟨f.stub ++ gap ++ stub, ?_, ?_, ?_⟩
      · rcases hkept with rfl | hfront
        · have hnil : gap = [] := List.length_eq_zero_iff.mp (by omega)
          rw [hnil, List.append_nil]
          exact hlies
        · exact liesIn_of_front gap hstub hfront.front_le (hrest.length_lt hlong)
      · rw [List.length_append, List.length_append, List.length_append]
        omega
      · rw [List.length_append, Fragment.reply]
        simp only [List.append_assoc, Nat.add_assoc]

end

end CodeStudy.Samba

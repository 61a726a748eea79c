import CodeStudy.Samba.ShareFragments

/-!
# The rounds of a share enumeration

The shares are asked for until none is missing. The first response is read as it was sent, in whatever
fragments it comes. Of a later one the client reads what its first fragment has: the others are put too far
behind it. So the list of all rounds is right if no later response has a share, or the number of all shares,
in another fragment.
-/

namespace CodeStudy.Samba

/-! ### Rounds -/

/-- A response and the fragments it comes in. -/
structure EnumRound where
  response : ServerResponse
  fragments : List Fragment
  fragmentsOf : FragmentsOf response.stub fragments

namespace EnumRound

variable (round : EnumRound)

def replies : List PipeReply := round.fragments.map Fragment.reply

/-- The number of shares in the response. -/
def count : Nat := (round.response.shares.getD []).length

/-- The bytes that the client counts for the response. -/
def length : Nat := 24 + round.response.stub.length

end EnumRound

/-- The rounds that are asked for when so many shares were read: the last of them, and no other, leaves no
share missing. -/
def Needed (sharesRead : Nat) : List EnumRound → Prop
  | [] => False
  | round :: rounds =>
      if sharesRead + round.count < round.response.totalEntries.toNat then Needed (sharesRead + round.count) rounds
      else rounds = []

/-- A response that the parser can read: no pointer is null but those of passwords, and the sizes of the texts
can be counted. -/
structure ServerResponse.Readable (r : ServerResponse) : Prop where
  complete : r.Complete
  textsFit : r.TextsFit .counted

/-- Rounds that are read as they were sent. -/
structure RoundsReadable (rounds : List EnumRound) : Prop where
  readable : ∀ round ∈ rounds, round.response.Readable
  frontFirst : ∀ round ∈ rounds.tail, FrontFirst round.response round.fragments
  sum_lt : (rounds.map EnumRound.length).sum < 2 ^ 32

/-- The list with the shares of these rounds. -/
def collected (shares : Smb2Shares) (rounds : List EnumRound) : Smb2Shares :=
  rounds.foldl (fun shares round => (round.response.reported shares).shares) shares

theorem sharelist_collected (rounds : List EnumRound) (shares : Smb2Shares) :
    (collected shares rounds).sharelist = shares.sharelist ++ rounds.flatMap fun round => round.response.listed := by
  induction rounds generalizing shares with
  | nil => exact (List.append_nil _).symm
  | cons round rounds ih =>
      rw [collected, List.foldl_cons, ← collected, ih, List.flatMap_cons, ← List.append_assoc]
      rfl

/-- Every share takes bytes of its response. -/
theorem EnumRound.count_le (round : EnumRound) (hcomplete : round.response.Complete) : round.count ≤ round.length := by
  have harray := count_le_length hcomplete.1
  rw [EnumRound.count, EnumRound.length]
  simp only [ServerResponse.stub, List.length_append]
  omega

/-! ### One round -/

/-- A request to resume the list is as long as the first one. -/
theorem length_createNetrShareEnumRequest (serverName : Bytes) (shinfoType resumeHandle bufferLen : Nat) :
    (createNetrShareEnumRequest serverName shinfoType resumeHandle bufferLen).map List.length =
      (createNetrShareEnumRequest serverName shinfoType 0 bufferLen).map List.length := by
  rw [createNetrShareEnumRequest, createNetrShareEnumRequest]
  cases utf8Units (cString serverName) with
  | none => rfl
  | some name =>
      dsimp only
      by_cases hsmall : bufferLen - 4 < 12 + (serverName.length + 1) * 2
      · rw [if_pos hsmall, if_pos hsmall]
      · rw [if_neg hsmall, if_neg hsmall]
        simp only [List.length_append, length_leBytes]
        split
        · rfl
        · simp only [Except.map, List.length_append, length_leBytes]

/-- The request can be made, and the server takes one of its size. -/
def RequestSent (pipe : PipeParams) : Prop :=
  ∃ request, createNetrShareEnumRequest pipe.serverName pipe.shinfoType 0 1000 = .ok request ∧
    24 + request.length ≤ pipe.maxXmitFrag

section

variable {env : ShareEnumEnv} {pipe : PipeParams} {s : ListState} {rest : List PipeReply}

/-- What follows a request, wherever the list is resumed. -/
theorem succeedsWhere_request {α : Type} {next : Except Fault α} {condition : Prop} {post : α → Prop}
    (hdefined : createNetrShareEnumRequest pipe.serverName pipe.shinfoType 0 1000 ≠ .error .undefined)
    (resumeHandle : Nat) (hnext : SucceedsWhere next condition post) :
    SucceedsWhere
      (do
        let request ← describe "" "" (createNetrShareEnumRequest pipe.serverName pipe.shinfoType resumeHandle 1000)
        if 24 + request.length > pipe.maxXmitFrag then
          listFailed "IOCTL : DCE_OP_SHARE_ENUM Payload size is larger than max_xmit_frag"
        else next)
      (RequestSent pipe ∧ condition) post := by
  have hlength := length_createNetrShareEnumRequest pipe.serverName pipe.shinfoType resumeHandle 1000
  rw [RequestSent]
  rcases hfirst : createNetrShareEnumRequest pipe.serverName pipe.shinfoType 0 1000 with fault | first
  · rw [hfirst] at hlength hdefined
    have hrequest : createNetrShareEnumRequest pipe.serverName pipe.shinfoType resumeHandle 1000 = .error fault := by
      rcases hsame : createNetrShareEnumRequest pipe.serverName pipe.shinfoType resumeHandle 1000 with fault' | request
      · rw [hsame] at hlength
        exact congrArg _ (Except.error.inj hlength)
      · rw [hsame] at hlength
        cases hlength
    rw [hrequest]
    cases fault with
    | failed ret msg =>
        apply SucceedsWhere.failed
        rintro ⟨⟨request, hrequest, -⟩, -⟩
        cases hrequest
    | undefined => exact absurd rfl hdefined
  · rw [hfirst] at hlength
    obtain ⟨request, hrequest, hsame⟩ : ∃ request,
        createNetrShareEnumRequest pipe.serverName pipe.shinfoType resumeHandle 1000 = .ok request ∧
          request.length = first.length := by
      rcases hrequest : createNetrShareEnumRequest pipe.serverName pipe.shinfoType resumeHandle 1000 with fault | request
      · rw [hrequest] at hlength
        cases hlength
      · rw [hrequest] at hlength
        exact ⟨request, rfl, Except.ok.inj hlength⟩
    rw [hrequest]
    show SucceedsWhere (if 24 + request.length > pipe.maxXmitFrag then _ else next) _ post
    by_cases hxmit : 24 + request.length > pipe.maxXmitFrag
    · rw [if_pos hxmit]
      apply SucceedsWhere.failed
      rintro ⟨⟨first', hfirst', hle⟩, -⟩
      rw [← Except.ok.inj hfirst'] at hle
      omega
    · rw [if_neg hxmit]
      exact hnext.congr (and_iff_right ⟨first, rfl, by omega⟩).symm

/-- What the client finds in a response that it put together. -/
theorem parse_payload {r : ServerResponse} {payload : Bytes} (hreadable : r.Readable) (hlies : r.LiesIn payload)
    (hlt : payload.length < 2 ^ 32) (shares : Smb2Shares) :
    readU32 payload (sub32 payload.length 4) = .ok 0 ∧
      ∃ behind, parseNetrShareEnumResponse .counted payload (sub32 payload.length 4) shares =
        .ok (r.reportedBefore behind shares) := by
  obtain ⟨behind, hpayload, hbehind⟩ := hlies
  have hlength : payload.length = r.front.length + behind.length + 4 := by
    rw [hpayload, List.length_append, List.length_append, length_leBytes]
  rw [sub32_eq (by omega) hlt]
  constructor
  · apply readU32_complete (hpayload.trans (List.append_nil _).symm) _ (by decide)
    rw [List.length_append]
    omega
  · refine ⟨behind ++ leBytes 4 0, ?_⟩
    rw [List.append_assoc] at hpayload
    refine (parseNetrShareEnumResponse_front hreadable.complete hpayload ?_ hlt shares).eq_ok_iff.mpr hreadable.textsFit
    rw [List.length_append, length_leBytes]
    omega

/-- A round adds the shares of its response. -/
theorem succeedsWhere_shareEnumRound {round : EnumRound} (hreadable : round.response.Readable)
    (hsized : Sized pipe.maxRecvFrag round.fragments)
    (hkept : s.sharesBuffLen = 0 ∨ FrontFirst round.response round.fragments)
    (hread : s.sharesRead ≤ s.sharesBuffLen) (hlt : s.sharesBuffLen + round.length < 2 ^ 32)
    (hdefined : createNetrShareEnumRequest pipe.serverName pipe.shinfoType 0 1000 ≠ .error .undefined) :
    SucceedsWhere (shareEnumRound env pipe s (round.replies ++ rest)) (RequestSent pipe ∧ Long round.fragments)
      fun out => out.1.sharesBuffLen = s.sharesBuffLen + round.length ∧
        out.1.sharesRead = s.sharesRead + round.count ∧
        out.1.shares = (round.response.reported s.shares).shares ∧
        out.2 = (round.response.totalEntries.toNat, rest) := by
  have hfragments := round.fragmentsOf
  rw [EnumRound.replies]
  generalize round.fragments = fragments at *
  obtain _ | ⟨f, others⟩ := fragments
  · cases hsized
  have hlong : s.sharesBuffLen = 0 ∨ 8 < f.stub.length := by
    refine hkept.imp_right fun hfront => ?_
    have hhead : round.response.head.length = 20 := rfl
    have hle := hfront.front_le
    simp only [ServerResponse.front, List.length_append] at hle
    omega
  have hcount := round.count_le hreadable.complete
  rw [EnumRound.length] at hlt hcount
  have hpart := hfragments.length_le
  have hlength := f.length_reply
  have hfits := hsized.1.1
  have hfour := hsized.1.2
  have hioctl : smb2Ioctl (64 * 1024) (f.reply :: (others.map Fragment.reply ++ rest)) =
      .ok (f.reply, others.map Fragment.reply ++ rest) := by
    rw [smb2Ioctl, if_neg (by omega)]
  have hsuccess : ¬ f.reply.status ≠ NtStatus.success := not_not.mpr rfl
  have hadd : add32 s.sharesBuffLen f.reply.data.length = s.sharesBuffLen + (24 + f.stub.length) := by
    rw [hlength, add32_eq (by omega)]
  have hflags := @succeedsWhere_operationResponse f f.reply.data f.stub (s.sharesBuffLen + (24 + f.stub.length)) rfl
    (by omega) (by omega) (Or.inl (by omega))
  have hgather := @succeedsWhere_gather env pipe.maxRecvFrag s.sharesBuffLen round.response rest f others
    hfragments hsized hkept hlt
  apply succeedsWhere_request hdefined
  rw [List.map_cons, List.cons_append, hioctl, ok_bind]
  simp only [hsuccess, if_false, hadd]
  refine (?_ : SucceedsWhere _ (32 < s.sharesBuffLen + (24 + f.stub.length) ∧ Long others ∧ True) _).congr ?_
  · refine (succeedsWhere_describe hflags).bind fun _ flags hequal => ?_
    rw [hequal]
    refine hgather.bind fun _ gathered hgathered => ?_
    obtain ⟨payload, hlies, hpayload, rfl⟩ := hgathered
    have hdrop : (f.header.1 ++ payload).drop 24 = payload := List.drop_left' f.header.2
    have hsub : sub32 (s.sharesBuffLen + (24 + round.response.stub.length)) 24 = payload.length := by
      rw [sub32_eq (by omega) hlt]
      omega
    obtain ⟨hstatus, behind, hparse⟩ := parse_payload hreadable hlies (by omega) s.shares
    simp only [hdrop, hsub, hstatus, ok_bind, ne_eq, not_true_eq_false, if_false, hparse]
    exact .ok ⟨rfl, add32_eq (by show s.sharesRead + round.count < 2 ^ 32; omega), rfl, rfl⟩
  · rw [and_true, long_cons]
    exact and_congr_left fun _ => by omega

/-- The rounds that are needed collect the shares of all of them. -/
theorem succeedsWhere_shareEnumRounds {round : EnumRound} {rounds : List EnumRound} {fuel : Nat}
    (hneeded : Needed s.sharesRead (round :: rounds)) (hfuel : rounds.length < fuel)
    (hreadable : ∀ other ∈ round :: rounds, other.response.Readable)
    (hsized : ∀ other ∈ round :: rounds, Sized pipe.maxRecvFrag other.fragments)
    (hkept : s.sharesBuffLen = 0 ∨ FrontFirst round.response round.fragments)
    (hlater : ∀ other ∈ rounds, FrontFirst other.response other.fragments)
    (hread : s.sharesRead ≤ s.sharesBuffLen)
    (hlt : s.sharesBuffLen + ((round :: rounds).map EnumRound.length).sum < 2 ^ 32)
    (hdefined : createNetrShareEnumRequest pipe.serverName pipe.shinfoType 0 1000 ≠ .error .undefined) :
    SucceedsWhere (shareEnumRounds env pipe fuel s ((round :: rounds).flatMap EnumRound.replies ++ rest))
      (RequestSent pipe ∧ ∀ other ∈ round :: rounds, Long other.fragments)
      fun shares => shares = collected s.shares (round :: rounds) := by
  induction rounds generalizing round s fuel with
  | nil =>
      obtain _ | fuel := fuel
      · omega
      rw [List.map_singleton, List.sum_singleton] at hlt
      have hround := List.mem_singleton_self round
      have hfirst := @succeedsWhere_shareEnumRound env pipe s rest round (hreadable _ hround) (hsized _ hround)
        hkept hread hlt hdefined
      rw [List.flatMap_singleton, shareEnumRounds, List.forall_mem_singleton]
      refine (?_ : SucceedsWhere _ ((RequestSent pipe ∧ Long round.fragments) ∧ True) _).congr (iff_of_eq (and_true _))
      refine hfirst.bind fun _ out hout => ?_
      obtain ⟨s', total, left⟩ := out
      obtain ⟨-, hcount, hshares, htotal⟩ := hout
      obtain ⟨rfl, rfl⟩ := Prod.mk.inj htotal
      have hdone : ¬ s'.sharesRead < round.response.totalEntries.toNat := by
        intro hmore
        rw [Needed, if_pos (hcount ▸ hmore)] at hneeded
        exact hneeded
      show SucceedsWhere (if s'.sharesRead < _ then _ else .ok s'.shares) True _
      rw [if_neg hdone]
      exact .ok hshares
  | cons next rounds ih =>
      obtain _ | fuel := fuel
      · omega
      rw [List.map_cons, List.sum_cons] at hlt
      have hround := List.mem_cons_self (a := round) (l := next :: rounds)
      have hfirst := @succeedsWhere_shareEnumRound env pipe s ((next :: rounds).flatMap EnumRound.replies ++ rest)
        round (hreadable _ hround) (hsized _ hround) hkept hread (by omega) hdefined
      have hmore : s.sharesRead + round.count < round.response.totalEntries.toNat := by
        by_contra hdone
        rw [Needed, if_neg hdone] at hneeded
        cases hneeded
      rw [Needed, if_pos hmore] at hneeded
      rw [List.flatMap_cons, List.append_assoc, shareEnumRounds, List.forall_mem_cons]
      refine (?_ : SucceedsWhere _ ((RequestSent pipe ∧ Long round.fragments) ∧
        RequestSent pipe ∧ ∀ other ∈ next :: rounds, Long other.fragments) _).congr ?_
      · refine hfirst.bind fun _ out hout => ?_
        obtain ⟨s', total, left⟩ := out
        obtain ⟨hbuffLen, hcount, hshares, htotal⟩ := hout
        obtain ⟨rfl, rfl⟩ := Prod.mk.inj htotal
        dsimp only at hbuffLen hcount
        have hleft : s'.sharesRead < round.response.totalEntries.toNat := by
          rw [hcount]
          exact hmore
        show SucceedsWhere (if s'.sharesRead < _ then shareEnumRounds env pipe fuel s' _ else .ok s'.shares) _ _
        rw [if_pos hleft]
        have hbound := round.count_le (hreadable round hround).complete
        have hlist := @ih s' next fuel (hcount ▸ hneeded) (Nat.lt_of_succ_lt_succ hfuel)
          (fun other hother => hreadable other (List.mem_cons_of_mem _ hother))
          (fun other hother => hsized other (List.mem_cons_of_mem _ hother))
          (Or.inr (hlater next (List.mem_cons_self ..)))
          (fun other hother => hlater other (List.mem_cons_of_mem _ hother)) (by omega) (by omega)
        rw [hshares] at hlist
        exact hlist
      · rw [and_and_and_comm, and_self]

end

/-! ### The list of shares -/

/-- The list that is returned, if one is, has the shares of these rounds, and nothing undefined is done. -/
def ListsSharesOf (rounds : List EnumRound) (result : Except Fault Smb2Shares) : Prop :=
  Meets result fun shares => shares.sharelist = rounds.flatMap fun round => round.response.listed

/-- What is sent and received fits the buffers of the client. -/
structure WithinBuffers (server : Bytes) (shinfoType : Nat) (bind : PipeReply) (rounds : List EnumRound) : Prop where
  request_ne : createNetrShareEnumRequest ([0x5c, 0x5c] ++ server) shinfoType 0 1000 ≠ .error .undefined
  length_le : bind.status = NtStatus.success → bind.data.length ≤ 1024
  sized : ∀ maxXmitFrag maxRecvFrag, bindResponse bind.data = .ok (maxXmitFrag, maxRecvFrag) →
    ∀ round ∈ rounds, Sized maxRecvFrag round.fragments

/-- What it takes to ask for the shares and to receive the responses. -/
structure Answered (env : ShareEnumEnv) (server user : Bytes) (shinfoType : Nat) (bind : PipeReply)
    (rounds : List EnumRound) : Prop where
  server_ne : server ≠ []
  user_ne : user ≠ []
  connectShare_eq : env.connectShare = .ok ()
  openPipe_eq : env.openPipe = .ok ()
  status_eq : bind.status = NtStatus.success
  requestSent : ∃ maxXmitFrag maxRecvFrag, bindResponse bind.data = .ok (maxXmitFrag, maxRecvFrag) ∧
    RequestSent ⟨[0x5c, 0x5c] ++ server, shinfoType, maxXmitFrag, maxRecvFrag⟩
  long : ∀ round ∈ rounds, Long round.fragments

/-- Each round takes a reply from the pipe. -/
theorem length_le_replies (rounds : List EnumRound) : rounds.length ≤ (rounds.flatMap EnumRound.replies).length := by
  induction rounds with
  | nil => exact le_rfl
  | cons round rounds ih =>
      have hpos := round.fragmentsOf.length_pos
      rw [List.flatMap_cons, List.length_append, List.length_cons, EnumRound.replies, List.length_map]
      omega

theorem listFailed_ne_undefined {α : Type} (msg : String) : (listFailed msg : Except Fault α) ≠ .error .undefined :=
  fun h => by cases h

theorem bindResponse_ne_undefined (data : Bytes) : bindResponse data ≠ .error .undefined := by
  rw [bindResponse]
  split
  · exact listFailed_ne_undefined _
  split
  · split
    · exact listFailed_ne_undefined _
    · exact listFailed_ne_undefined _
  split
  · split
    · exact listFailed_ne_undefined _
    · exact fun h => by cases h
  · exact fun h => by cases h

/-- The rounds that are needed are listed, or the call fails. -/
theorem succeedsWhere_smb2ListShares (env : ShareEnumEnv) (server user : Bytes) (shinfoType : Nat) (bind : PipeReply)
    (rounds : List EnumRound) (rest : List PipeReply)
    (hreplies : env.replies = bind :: (rounds.flatMap EnumRound.replies ++ rest)) (hneeded : Needed 0 rounds)
    (hreadable : RoundsReadable rounds) (hbuffers : WithinBuffers server shinfoType bind rounds) :
    SucceedsWhere (smb2ListShares env server user shinfoType) (Answered env server user shinfoType bind rounds)
      fun shares => shares = collected {} rounds := by
  obtain _ | ⟨round, rounds⟩ := rounds
  · cases hneeded
  rw [smb2ListShares]
  by_cases hserver : server = []
  · rw [if_pos hserver]
    exact .failed fun h => h.server_ne hserver
  rw [if_neg hserver]
  by_cases huser : user = []
  · rw [if_pos huser]
    exact .failed fun h => h.user_ne huser
  rw [if_neg huser]
  rcases hconnect : env.connectShare with msg | _
  · refine .failed fun h => ?_
    rw [h.connectShare_eq] at hconnect
    cases hconnect
  rcases hopen : env.openPipe with msg | _
  · refine .failed fun h => ?_
    rw [h.openPipe_eq] at hopen
    cases hopen
  have hioctl : smb2Ioctl 1024 env.replies =
      .ok (bind, (round :: rounds).flatMap EnumRound.replies ++ rest) := by
    rw [hreplies, smb2Ioctl, if_neg]
    rintro ⟨hstatus, hlong⟩
    exact absurd (hbuffers.length_le hstatus) (by omega)
  simp only [hioctl, ok_bind]
  by_cases hstatus : bind.status = NtStatus.success
  · rw [if_neg (not_not.mpr hstatus)]
    rcases hbind : bindResponse bind.data with fault | ⟨maxXmitFrag, maxRecvFrag⟩
    · cases fault with
      | failed ret msg =>
          refine .failed fun h => ?_
          obtain ⟨maxXmitFrag, maxRecvFrag, hsizes, -⟩ := h.requestSent
          rw [hbind] at hsizes
          cases hsizes
      | undefined => exact absurd hbind (bindResponse_ne_undefined _)
    · rw [ok_bind]
      have hfuel : rounds.length < ((round :: rounds).flatMap EnumRound.replies ++ rest).length + 1 := by
        have hle := length_le_replies (round :: rounds)
        rw [List.length_cons] at hle
        rw [List.length_append]
        omega
      refine (succeedsWhere_shareEnumRounds hneeded hfuel hreadable.readable (hbuffers.sized _ _ hbind) (Or.inl rfl)
        hreadable.frontFirst le_rfl ?_ hbuffers.request_ne).congr ?_
      · exact (Nat.zero_add _).symm ▸ hreadable.sum_lt
      · constructor
        · rintro ⟨hsent, hlong⟩
          exact ⟨hserver, huser, hconnect, hopen, hstatus, ⟨_, _, hbind, hsent⟩, hlong⟩
        · intro h
          obtain ⟨_, _, hsizes, hsent⟩ := h.requestSent
          obtain ⟨rfl, rfl⟩ := Prod.mk.inj (Except.ok.inj (hbind.symm.trans hsizes))
          exact ⟨hsent, h.long⟩
  · rw [if_pos hstatus]
    exact .failed fun h => hstatus h.status_eq

/-- Every number of rounds is listed, in whatever fragments the first of them comes, if the later ones have their
shares in their first fragments. -/
theorem listsSharesOf_rounds (env : ShareEnumEnv) (server user : Bytes) (shinfoType : Nat) (bind : PipeReply)
    (rounds : List EnumRound) (rest : List PipeReply)
    (hreplies : env.replies = bind :: (rounds.flatMap EnumRound.replies ++ rest)) (hneeded : Needed 0 rounds)
    (hreadable : RoundsReadable rounds) (hbuffers : WithinBuffers server shinfoType bind rounds) :
    ListsSharesOf rounds (smb2ListShares env server user shinfoType) ∧
      (Answered env server user shinfoType bind rounds →
        smb2ListShares env server user shinfoType = .ok (collected {} rounds)) := by
  have hlist := succeedsWhere_smb2ListShares env server user shinfoType bind rounds rest hreplies hneeded hreadable
    hbuffers
  refine ⟨hlist.meets.mono ?_, hlist.eq_ok⟩
  rintro _ - rfl
  rw [sharelist_collected]
  rfl

/-- An answer to the bind request that allows fragments of 4280 bytes. -/
def exampleBind : PipeReply where
  status := NtStatus.success
  data := [5, 0, rpcPacketTypeBindack] ++ List.replicate 13 0 ++ leBytes 2 4280 ++ leBytes 2 4280

/-- A share with a name of one letter and an empty remark. -/
def exampleShare (letter : UInt16) (h : letter ≠ 0) : ServerShare where
  name := some ⟨0x20000, by decide,
    { maxLength := 2, units := [letter], ne_zero := List.forall_mem_singleton.mpr h }⟩
  shareType := 0
  remark := some ⟨0x20004, by decide, { maxLength := 1, units := [], ne_zero := List.forall_mem_nil _ }⟩

/-- A response with one share, of which there may be more. -/
def exampleResponse (share : ServerShare) (totalEntries : UInt32) : ServerResponse where
  level := .one
  referent := 0x20008
  arrayReferent := 0x2000c
  maxCount := 1
  shares := some [share]
  totalEntries
  resumeHandlePtr := 0x20010
  resumeHandle := some 1

/-- The header of a fragment with these flags. -/
def exampleHeader (flags : UInt8) : Block 24 :=
  ⟨[5, 0, 2, flags] ++ List.replicate 20 0, rfl⟩

theorem isLast_exampleHeader (flags : UInt8) (stub : Bytes) :
    Fragment.IsLast ⟨exampleHeader flags, stub⟩ ↔ flags &&& rpcFlagLastFrag ≠ 0 := Iff.rfl

/-- A response in one fragment. -/
def wholeRound (r : ServerResponse) : EnumRound :=
  ⟨r, [⟨exampleHeader 0x03, r.stub⟩], .last ((isLast_exampleHeader 0x03 r.stub).mpr (by decide))⟩

/-- A response in two fragments, the first with the fixed part of the only share. -/
def splitRound (r : ServerResponse) : EnumRound :=
  ⟨r, [⟨exampleHeader 0x01, r.stub.take 36⟩, ⟨exampleHeader 0x02, r.stub.drop 36⟩], by
    have hmore : ¬ Fragment.IsLast ⟨exampleHeader 0x01, r.stub.take 36⟩ := by
      rw [isLast_exampleHeader]
      decide
    have h := FragmentsOf.cons hmore (.last ((isLast_exampleHeader 0x02 (r.stub.drop 36)).mpr (by decide)))
    rw [List.take_append_drop] at h
    exact h⟩

/-- A response in two fragments, the second with what is behind the number of all shares. -/
def frontRound (r : ServerResponse) : EnumRound :=
  ⟨r, [⟨exampleHeader 0x01, r.front⟩, ⟨exampleHeader 0x02, r.behind⟩], by
    have hmore : ¬ Fragment.IsLast ⟨exampleHeader 0x01, r.front⟩ := by
      rw [isLast_exampleHeader]
      decide
    have h := FragmentsOf.cons hmore (.last ((isLast_exampleHeader 0x02 r.behind).mpr (by decide)))
    rw [stub_eq_front]
    exact h⟩

/-- Responses with one of two shares each: the first in any fragments, the second with its share in the first
of them. -/
def exampleRounds : List EnumRound :=
  [splitRound (exampleResponse (exampleShare 0x41 (by decide)) 2),
    frontRound (exampleResponse (exampleShare 0x42 (by decide)) 2)]

theorem readable_exampleResponse {letter : UInt16} (h : letter ≠ 0) (totalEntries : UInt32)
    (hfits : (ucs2ToUtf8 [letter, 0]).length + 1 < 2 ^ 31) :
    (exampleResponse (exampleShare letter h) totalEntries).Readable := by
  constructor
  · exact ⟨rfl, List.forall_mem_singleton.mpr ⟨rfl, rfl, fun h => by cases h⟩⟩
  · refine List.forall_mem_singleton.mpr ⟨?_, ?_, trivial⟩
    · rintro _ ⟨⟩
      exact hfits
    · rintro _ ⟨⟩
      exact TextConversion.counted.fits_terminator

theorem listsSharesOf_exampleRounds :
    smb2ListShares { replies := exampleBind :: exampleRounds.flatMap EnumRound.replies } [0x73] [0x75] 1 =
      .ok { shareInfoType := 1, sharelist := [{ name := [0x41] }, { name := [0x42] }] } := by
  have hreadable : RoundsReadable exampleRounds := by
    refine ⟨?_, ?_, by decide⟩
    · refine List.forall_mem_cons.mpr ⟨?_, List.forall_mem_singleton.mpr ?_⟩
      · exact readable_exampleResponse (by decide) 2 (by decide)
      · exact readable_exampleResponse (by decide) 2 (by decide)
    · exact List.forall_mem_singleton.mpr (le_refl _)
  have hneeded : Needed 0 exampleRounds := by
    rw [exampleRounds, Needed, if_pos (by decide), Needed, if_neg (by decide)]
  have hsized : ∀ round ∈ exampleRounds, Sized 4280 round.fragments := by
    refine List.forall_mem_cons.mpr ⟨?_, List.forall_mem_singleton.mpr ?_⟩
    · exact ⟨by decide, List.forall_mem_singleton.mpr (by decide)⟩
    · exact ⟨by decide, List.forall_mem_singleton.mpr (by decide)⟩
  have hlong : ∀ round ∈ exampleRounds, Long round.fragments := by
    refine List.forall_mem_cons.mpr ⟨?_, List.forall_mem_singleton.mpr ?_⟩
    · exact List.forall_mem_cons.mpr ⟨by decide, List.forall_mem_singleton.mpr (by decide)⟩
    · exact List.forall_mem_cons.mpr ⟨by decide, List.forall_mem_singleton.mpr (by decide)⟩
  have hbuffers : WithinBuffers [0x73] 1 exampleBind exampleRounds := by
    refine ⟨by decide, fun _ => by decide, ?_⟩
    rintro maxXmitFrag maxRecvFrag hsizes
    obtain ⟨rfl, rfl⟩ := Prod.mk.inj (Except.ok.inj hsizes)
    exact hsized
  refine (listsSharesOf_rounds _ [0x73] [0x75] 1 exampleBind exampleRounds [] (congrArg _ (List.append_nil _).symm)
    hneeded hreadable hbuffers).2 ⟨?_, ?_, rfl, rfl, rfl, ⟨4280, 4280, rfl, ?_⟩, hlong⟩
  · exact List.cons_ne_nil _ _
  · exact List.cons_ne_nil _ _
  · exact ⟨_, rfl, by decide⟩

/-- The first response gives one of two shares. -/
def firstOfTwo : EnumRound := wholeRound (exampleResponse (exampleShare 0x41 (by decide)) 2)

/-- The second response gives the other share in two fragments. -/
def secondOfTwo : EnumRound := splitRound (exampleResponse (exampleShare 0x42 (by decide)) 2)

/-- The second share is read from what memory has between the fragments of the second round. -/
theorem not_listsSharesOf_twoRounds :
    ¬ ListsSharesOf [firstOfTwo, secondOfTwo]
      (smb2ListShares { replies := exampleBind :: (firstOfTwo.replies ++ secondOfTwo.replies) } [0x73] [0x75] 1) := by
  intro h
  have hrun : (smb2ListShares { replies := exampleBind :: (firstOfTwo.replies ++ secondOfTwo.replies) }
      [0x73] [0x75] 1).toOption.any (fun shares => decide (shares.sharelist ≠
        [firstOfTwo, secondOfTwo].flatMap fun round => round.response.listed)) = true := by
    decide +kernel
  obtain ⟨shares, hshares, hne⟩ := (Option.any_eq_true _ _).mp hrun
  cases hresult : smb2ListShares
      { replies := exampleBind :: (firstOfTwo.replies ++ secondOfTwo.replies) } [0x73] [0x75] 1 with
  | error fault =>
      rw [hresult] at hshares
      cases hshares
  | ok shares' =>
      rw [hresult] at hshares
      have heq : shares' = shares := Option.some.inj hshares
      exact of_decide_eq_true hne (h.result shares (by rw [hresult, heq]))

end CodeStudy.Samba

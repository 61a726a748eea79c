import CodeStudy.Samba.Url

/-!
# The arguments of a URL

An accepted argument asks for a setting. The arguments are applied one by one while the rest of them is not yet
looked at, so a URL that is refused may have changed the context, and the value of an argument is compared where
there may be none.
-/

namespace CodeStudy.Samba

/-! ### What arguments ask for -/

/-- What an argument asks for. -/
inductive Setting where
  | sec (s : Smb2Sec)
  | cachedKrb5
  | version (v : Smb2NegotiateVersion)
  deriving DecidableEq

def Setting.apply (smb2 : UrlSettings) : Setting → UrlSettings
  | .sec s => { smb2 with sec := s }
  | .cachedKrb5 => { smb2 with sec := .krb5, useCachedCreds := true }
  | .version v => { smb2 with version := v }

def secValues : List (Bytes × Setting) :=
  [(ascii "krb5", .sec .krb5), (ascii "krb5cc", .cachedKrb5), (ascii "ntlmssp", .sec .ntlmssp)]

def versValues : List (Bytes × Setting) :=
  [(ascii "2", .version .any2), (ascii "3", .version .any3), (ascii "2.02", .version .v0202),
    (ascii "2.10", .version .v0210), (ascii "3.0", .version .v0300), (ascii "3.00", .version .v0300),
    (ascii "3.02", .version .v0302), (ascii "3.11", .version .v0311)]

/-- What an argument asks for, if it is one that the program knows. -/
def settingOf (arg : Bytes) : Option Setting :=
  match cutAt '='.toUInt8 arg with
  | (_, none) => none
  | (key, some value) =>
      if key = ascii "sec" then secValues.lookup value
      else if key = ascii "vers" then versValues.lookup value
      else none

/-- An argument whose value is compared and which has none. -/
def LacksValue (arg : Bytes) : Prop := arg = ascii "sec" ∨ arg = ascii "vers"

instance (arg : Bytes) : Decidable (LacksValue arg) := inferInstanceAs (Decidable (_ ∨ _))

/-- The settings that a list of arguments asks for, from the first to the last. -/
def settingsAfter (smb2 : UrlSettings) (args : List Bytes) : UrlSettings :=
  (args.filterMap settingOf).foldl Setting.apply smb2

/-! ### One argument -/

/-- The values that are compared one after the other are those of a table. -/
theorem smb2ParseArg_of_value {key : Bytes} {values : List (Bytes × Setting)} (smb2 : UrlSettings) (value : Bytes)
    (hkey : key = ascii "sec" ∧ values = secValues ∨ key = ascii "vers" ∧ values = versValues) :
    (∃ setting, values.lookup value = some setting ∧ smb2ParseArg smb2 key (some value) = .ok (setting.apply smb2, .ok ())) ∨
    (values.lookup value = none ∧ ∃ error, smb2ParseArg smb2 key (some value) = .ok (smb2, .error error)) := by
  by_cases hknown : value ∈ values.map Prod.fst
  · left
    rcases hkey with ⟨rfl, rfl⟩ | ⟨rfl, rfl⟩
    all_goals
      simp only [secValues, versValues, List.map_cons, List.map_nil, List.mem_cons, List.not_mem_nil, or_false] at hknown
    · rcases hknown with rfl | rfl | rfl <;> exact ⟨_, rfl, rfl⟩
    · rcases hknown with rfl | rfl | rfl | rfl | rfl | rfl | rfl | rfl <;> exact ⟨_, rfl, rfl⟩
  · right
    refine ⟨List.lookup_eq_none_iff.mpr fun p hp => ?_, ?_⟩
    · rw [bne_iff_ne]
      rintro rfl
      exact hknown (List.mem_map_of_mem hp)
    · rcases hkey with ⟨rfl, rfl⟩ | ⟨rfl, rfl⟩
      all_goals
        simp only [secValues, versValues, List.map_cons, List.map_nil, List.mem_cons, List.not_mem_nil, or_false, not_or]
          at hknown
      · rw [smb2ParseArg, if_pos rfl]
        simp only [hknown, if_false]
        exact ⟨_, rfl⟩
      · rw [smb2ParseArg, if_neg (by decide), if_pos rfl]
        simp only [hknown, if_false, or_false]
        exact ⟨_, rfl⟩

/-- One turn of the loop does what the argument asks for, compares a value that is not there, or refuses the
argument and changes nothing. -/
theorem smb2ParseArg_cases (smb2 : UrlSettings) (arg : Bytes) :
    (∃ setting, settingOf arg = some setting ∧ ¬ LacksValue arg ∧
      smb2ParseArg smb2 (cutAt '='.toUInt8 arg).1 (cutAt '='.toUInt8 arg).2 = .ok (setting.apply smb2, .ok ())) ∨
    (settingOf arg = none ∧ LacksValue arg ∧
      smb2ParseArg smb2 (cutAt '='.toUInt8 arg).1 (cutAt '='.toUInt8 arg).2 = .error .undefined) ∨
    (settingOf arg = none ∧ ¬ LacksValue arg ∧
      ∃ error, smb2ParseArg smb2 (cutAt '='.toUInt8 arg).1 (cutAt '='.toUInt8 arg).2 = .ok (smb2, .error error)) := by
  rcases cutAt_cases '='.toUInt8 arg with ⟨-, hcut⟩ | ⟨key, value, -, rfl, hcut⟩
  · right
    have hnone : settingOf arg = none := by rw [settingOf, hcut]
    rw [hnone, hcut]
    by_cases hsec : arg = ascii "sec"
    · exact .inl ⟨rfl, .inl hsec, by rw [smb2ParseArg, if_pos hsec]⟩
    by_cases hvers : arg = ascii "vers"
    · exact .inl ⟨rfl, .inr hvers, by rw [smb2ParseArg, if_neg hsec, if_pos hvers]⟩
    · exact .inr ⟨rfl, not_or.mpr ⟨hsec, hvers⟩, _, by rw [smb2ParseArg, if_neg hsec, if_neg hvers]⟩
  · have hvalue : ¬ LacksValue (key ++ '='.toUInt8 :: value) := by
      rintro (h | h)
      · exact absurd (h ▸ List.mem_append_cons_self : '='.toUInt8 ∈ ascii "sec") (by decide)
      · exact absurd (h ▸ List.mem_append_cons_self : '='.toUInt8 ∈ ascii "vers") (by decide)
    rw [settingOf, hcut]
    simp only
    by_cases hsec : key = ascii "sec"
    · rw [if_pos hsec]
      rcases smb2ParseArg_of_value smb2 value (.inl ⟨hsec, rfl⟩) with ⟨setting, hlookup, hparse⟩ | ⟨hlookup, hparse⟩
      · exact .inl ⟨setting, hlookup, hvalue, hparse⟩
      · exact .inr (.inr ⟨hlookup, hvalue, hparse⟩)
    by_cases hvers : key = ascii "vers"
    · rw [if_neg hsec, if_pos hvers]
      rcases smb2ParseArg_of_value smb2 value (.inr ⟨hvers, rfl⟩) with ⟨setting, hlookup, hparse⟩ | ⟨hlookup, hparse⟩
      · exact .inl ⟨setting, hlookup, hvalue, hparse⟩
      · exact .inr (.inr ⟨hlookup, hvalue, hparse⟩)
    · rw [if_neg hsec, if_neg hvers]
      exact .inr (.inr ⟨rfl, hvalue, _, by rw [smb2ParseArg, if_neg hsec, if_neg hvers]⟩)

/-! ### The loop -/

/-- The turns of the loop, one for each argument. -/
theorem smb2ParseArgs_cons (smb2 : UrlSettings) {args : Bytes} (h : args ≠ []) :
    smb2ParseArgs smb2 (some args) =
      match smb2ParseArg smb2 (cutAt '='.toUInt8 (cutAt '&'.toUInt8 args).1).1
          (cutAt '='.toUInt8 (cutAt '&'.toUInt8 args).1).2 with
      | .ok (smb2, .ok ()) => smb2ParseArgs smb2 (some ((cutAt '&'.toUInt8 args).2.getD []))
      | other => other := by
  have hnext (smb2 : UrlSettings) :
      smb2ParseArgs smb2 (cutAt '&'.toUInt8 args).2 = smb2ParseArgs smb2 (some ((cutAt '&'.toUInt8 args).2.getD [])) := by
    cases (cutAt '&'.toUInt8 args).2 with
    | some next => rfl
    | none => rw [smb2ParseArgs, Option.getD_none, smb2ParseArgs, dif_pos rfl]
  rw [smb2ParseArgs, dif_neg h]
  rcases cutAt '='.toUInt8 (cutAt '&'.toUInt8 args).1 with ⟨key, value⟩
  rcases harg : smb2ParseArg smb2 key value with fault | ⟨smb2, error | ⟨⟨⟩⟩⟩
  · simp [harg]
  · simp [harg]
  · simp [harg, hnext]

/-- The loop gets behind the accepted arguments and has applied them. -/
theorem smb2ParseArgs_accepted {accepted rest : List Bytes} (haccepted : ∀ arg ∈ accepted, (settingOf arg).isSome)
    (smb2 : UrlSettings) {args : Bytes} (hargs : pieces '&'.toUInt8 args = accepted ++ rest) :
    ∃ left, pieces '&'.toUInt8 left = rest ∧
      smb2ParseArgs smb2 (some args) = smb2ParseArgs (settingsAfter smb2 accepted) (some left) := by
  induction accepted generalizing smb2 args with
  | nil => exact ⟨args, hargs, rfl⟩
  | cons arg accepted ih =>
      obtain ⟨harg, hothers⟩ := List.forall_mem_cons.mp haccepted
      have hne : args ≠ [] := ne_nil_of_pieces hargs
      rw [pieces_eq hne, List.cons_append, List.cons.injEq] at hargs
      obtain ⟨rfl, hargs⟩ := hargs
      rcases smb2ParseArg_cases smb2 (cutAt '&'.toUInt8 args).1 with ⟨setting, hsetting, -, hparse⟩ | ⟨hnone, -⟩ | ⟨hnone, -⟩
      · obtain ⟨left, hleft, hloop⟩ := ih hothers (setting.apply smb2) hargs
        refine ⟨left, hleft, ?_⟩
        rw [smb2ParseArgs_cons smb2 hne, hparse]
        simp only
        rw [hloop, settingsAfter, settingsAfter, List.filterMap_cons_some hsetting, List.foldl_cons]
      · rw [hnone] at harg
        cases harg
      · rw [hnone] at harg
        cases harg

theorem smb2ParseArgs_nil (smb2 : UrlSettings) : smb2ParseArgs smb2 (some []) = .ok (smb2, .ok ()) := by
  rw [smb2ParseArgs, dif_pos rfl]

/-- All arguments are accepted. -/
theorem smb2ParseArgs_of_forall {smb2 : UrlSettings} {args : Bytes}
    (h : ∀ arg ∈ pieces '&'.toUInt8 args, (settingOf arg).isSome) :
    smb2ParseArgs smb2 (some args) = .ok (settingsAfter smb2 (pieces '&'.toUInt8 args), .ok ()) := by
  obtain ⟨left, hleft, hloop⟩ := smb2ParseArgs_accepted h smb2 (List.append_nil _).symm
  have hnil : left = [] := by
    by_contra hne
    rw [pieces_eq hne] at hleft
    cases hleft
  rw [hloop, hnil, smb2ParseArgs_nil]

/-- The first argument that is not accepted stops the loop. -/
theorem smb2ParseArgs_of_refused (smb2 : UrlSettings) {args arg : Bytes} {accepted rest : List Bytes}
    (hargs : pieces '&'.toUInt8 args = accepted ++ arg :: rest) (haccepted : ∀ arg ∈ accepted, (settingOf arg).isSome)
    (hrefused : settingOf arg = none) :
    (LacksValue arg ∧ smb2ParseArgs smb2 (some args) = .error .undefined) ∨
    (¬ LacksValue arg ∧ ∃ error, smb2ParseArgs smb2 (some args) = .ok (settingsAfter smb2 accepted, .error error)) := by
  obtain ⟨left, hleft, hloop⟩ := smb2ParseArgs_accepted haccepted smb2 hargs
  have hne : left ≠ [] := ne_nil_of_pieces hleft
  rw [pieces_eq hne, List.cons.injEq] at hleft
  rw [hloop, smb2ParseArgs_cons _ hne, hleft.1]
  rcases smb2ParseArg_cases (settingsAfter smb2 accepted) arg with ⟨setting, hsetting, -⟩ | ⟨-, hlacks, hparse⟩ |
    ⟨-, hlacks, error, hparse⟩
  · rw [hrefused] at hsetting
    cases hsetting
  · rw [hparse]
    exact .inl ⟨hlacks, rfl⟩
  · rw [hparse]
    exact .inr ⟨hlacks, error, rfl⟩

/-! ### A whole URL -/

/-- The program gets as far as looking for arguments. -/
def LooksForArguments (url : Bytes) : Prop :=
  (cString url).take 6 = ascii "smb://" ∧ ((cString url).drop 6).length < maxUrlSize

/-- The arguments of a URL. Nothing stands behind a last separator. -/
def urlArguments (url : Bytes) : List Bytes := pieces '&'.toUInt8 ((cutAt '?'.toUInt8 ((cString url).drop 6)).2.getD [])

/-- All arguments are accepted and have been applied, from the first to the last. -/
structure AppliedInFull (smb2 : UrlSettings) (args : List Bytes) (after : UrlSettings) : Prop where
  accepted : ∀ arg ∈ args, (settingOf arg).isSome
  after_eq : after = settingsAfter smb2 args

/-- A URL that is refused changes nothing, and one that is not has had its arguments applied in full. -/
def ArgumentsHandled (smb2 : UrlSettings) (url : Bytes) : Prop :=
  ∃ after ret, smb2ParseUrl smb2 url = .ok (after, ret) ∧
    match ret with
    | .error _ => after = smb2
    | .ok _ => AppliedInFull smb2 (urlArguments url) after

/-- The first argument that is not accepted has its value, and those before it ask for what is set already. -/
def RefusedInTime (smb2 : UrlSettings) (args : List Bytes) : Prop :=
  ∀ accepted arg rest, args = accepted ++ arg :: rest → (∀ a ∈ accepted, (settingOf a).isSome) → settingOf arg = none →
    ¬ LacksValue arg ∧ settingsAfter smb2 accepted = smb2

/-- A URL that is refused for what stands before its arguments. -/
theorem argumentsHandled_of_not {smb2 : UrlSettings} {url : Bytes} (h : ¬ LooksForArguments url) :
    ArgumentsHandled smb2 url := by
  by_cases hscheme : (cString url).take 6 = ascii "smb://"
  · have hlong : ((cString url).drop 6).length ≥ maxUrlSize := not_lt.mp fun hlt => h ⟨hscheme, hlt⟩
    refine ⟨smb2, .error (ascii "URL is too long"), ?_, rfl⟩
    rw [smb2ParseUrl]
    simp only
    rw [if_neg (not_not.mpr hscheme), if_pos hlong]
  · refine ⟨smb2, .error (ascii "URL does not start with 'smb://'"), ?_, rfl⟩
    rw [smb2ParseUrl]
    simp only
    rw [if_pos hscheme]

theorem smb2ParseUrl_of_looksForArguments {url : Bytes} (h : LooksForArguments url) (smb2 : UrlSettings) :
    ∃ args, pieces '&'.toUInt8 args = urlArguments url ∧ ∃ u, smb2ParseUrl smb2 url =
      (smb2ParseArgs smb2 (some args)).map fun (after, ret) => (after, ret.map fun () => u) := by
  refine ⟨_, rfl, urlComponents (cutAt '?'.toUInt8 ((cString url).drop 6)).1, ?_⟩
  rw [smb2ParseUrl]
  simp only
  rw [if_neg (not_not.mpr h.1), if_neg (not_le.mpr h.2)]
  rcases cutAt '?'.toUInt8 ((cString url).drop 6) with ⟨str, none | args⟩
  · rw [Option.getD_none, smb2ParseArgs_nil]
    rfl
  · simp only [Option.getD_some]
    rcases smb2ParseArgs smb2 (some args) with fault | ⟨after, error | -⟩ <;> rfl

/-- A URL leaves the context as it was when it is refused, and applies all of its arguments when it is not, if
and only if the program does not look for arguments, or the first argument it does not accept has its value and
those before it ask for what is set already. -/
theorem argumentsHandled_iff (smb2 : UrlSettings) (url : Bytes) :
    ArgumentsHandled smb2 url ↔ (LooksForArguments url → RefusedInTime smb2 (urlArguments url)) := by
  by_cases hlooks : LooksForArguments url
  swap
  · exact iff_of_true (argumentsHandled_of_not hlooks) fun h => absurd h hlooks
  rw [forall_prop_of_true hlooks]
  obtain ⟨args, hargs, u, hparse⟩ := smb2ParseUrl_of_looksForArguments hlooks smb2
  constructor
  · rintro ⟨after, ret, hret, hafter⟩ accepted arg rest hsplit haccepted hrefused
    rw [hparse] at hret
    rcases smb2ParseArgs_of_refused smb2 (hargs.trans hsplit) haccepted hrefused with ⟨-, hloop⟩ |
      ⟨hlacks, error, hloop⟩
    · rw [hloop] at hret
      cases hret
    · rw [hloop] at hret
      cases hret
      exact ⟨hlacks, hafter⟩
  · intro hrefused
    by_cases hall : ∀ arg ∈ urlArguments url, (settingOf arg).isSome
    · refine ⟨_, .ok u, ?_, hall, rfl⟩
      rw [hparse, smb2ParseArgs_of_forall (hargs ▸ hall), hargs]
      rfl
    · have hfirst : ((urlArguments url).find? fun arg => (settingOf arg).isNone).isSome := by
        rw [not_forall] at hall
        obtain ⟨arg, hall⟩ := hall
        rw [Classical.not_imp, Option.not_isSome_iff_eq_none] at hall
        exact List.find?_isSome.mpr ⟨arg, hall.1, Option.isNone_iff_eq_none.mpr hall.2⟩
      obtain ⟨arg, harg⟩ := Option.isSome_iff_exists.mp hfirst
      obtain ⟨hnone, accepted, rest, hsplit, haccepted⟩ := List.find?_eq_some_iff_append.mp harg
      have hsome (a : Bytes) (ha : a ∈ accepted) : (settingOf a).isSome := by simpa using haccepted a ha
      rw [Option.isNone_iff_eq_none] at hnone
      obtain ⟨hlacks, hsame⟩ := hrefused accepted arg rest hsplit hsome hnone
      rcases smb2ParseArgs_of_refused smb2 (hargs.trans hsplit) hsome hnone with ⟨hlacks', -⟩ |
        ⟨-, error, hloop⟩
      · exact absurd hlacks' hlacks
      · refine ⟨_, .error error, ?_, hsame⟩
        rw [hparse, hloop]
        rfl

/-- The first argument has changed the context when the second is refused, and an argument without a value is
compared with the known ones. -/
theorem not_argumentsHandled_refused :
    (∃ error, smb2ParseUrl ⟨.undefined, false, .any⟩ (ascii "smb://server/share?sec=krb5&foo=1") =
        .ok (⟨.krb5, false, .any⟩, .error error)) ∧
      ¬ ArgumentsHandled ⟨.undefined, false, .any⟩ (ascii "smb://server/share?sec=krb5&foo=1") ∧
      smb2ParseUrl ⟨.undefined, false, .any⟩ (ascii "smb://server/share?sec") = .error .undefined ∧
      ¬ ArgumentsHandled ⟨.undefined, false, .any⟩ (ascii "smb://server/share?sec") := by
  have hchanged : ∃ error, smb2ParseUrl ⟨.undefined, false, .any⟩ (ascii "smb://server/share?sec=krb5&foo=1") =
      .ok (⟨.krb5, false, .any⟩, .error error) := by
    have hurl : urlArguments (ascii "smb://server/share?sec=krb5&foo=1") = [ascii "sec=krb5"] ++ ascii "foo=1" :: [] := by
      decide
    have hlooks : LooksForArguments (ascii "smb://server/share?sec=krb5&foo=1") := ⟨by decide, by decide⟩
    obtain ⟨args, hargs, u, hparse⟩ := smb2ParseUrl_of_looksForArguments hlooks ⟨.undefined, false, .any⟩
    have hafter : settingsAfter ⟨.undefined, false, .any⟩ [ascii "sec=krb5"] = ⟨.krb5, false, .any⟩ := by decide
    rcases smb2ParseArgs_of_refused ⟨.undefined, false, .any⟩ (hargs.trans hurl) (by decide) (by decide) with
      ⟨hlacks, -⟩ | ⟨-, error, hloop⟩
    · exact absurd hlacks (by decide)
    · rw [hafter] at hloop
      rw [hparse, hloop]
      exact ⟨error, rfl⟩
  have hundefined : smb2ParseUrl ⟨.undefined, false, .any⟩ (ascii "smb://server/share?sec") = .error .undefined := by
    have hurl : urlArguments (ascii "smb://server/share?sec") = [] ++ ascii "sec" :: [] := by decide
    have hlooks : LooksForArguments (ascii "smb://server/share?sec") := ⟨by decide, by decide⟩
    obtain ⟨args, hargs, u, hparse⟩ := smb2ParseUrl_of_looksForArguments hlooks ⟨.undefined, false, .any⟩
    rcases smb2ParseArgs_of_refused ⟨.undefined, false, .any⟩ (hargs.trans hurl) (by decide) (by decide) with
      ⟨-, hloop⟩ | ⟨hlacks, -⟩
    · rw [hparse, hloop]
      rfl
    · exact absurd (.inl rfl) hlacks
  refine ⟨hchanged, ?_, hundefined, ?_⟩
  · rintro ⟨after, ret, hret, hafter⟩
    obtain ⟨error, hchanged⟩ := hchanged
    rw [hchanged] at hret
    cases hret
    cases hafter
  · rintro ⟨after, ret, hret, -⟩
    rw [hundefined] at hret
    cases hret

end CodeStudy.Samba

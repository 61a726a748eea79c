import Mathlib.Data.List.TakeWhile
import CodeStudy.Base.Split
import CodeStudy.Base.View
import CodeStudy.Samba.Context
import CodeStudy.Samba.Requests

/-!
# URLs

A URL is `smb://[<domain;][<username>@]<host>/<share>/<path>`, with arguments behind a question mark. The
arguments are applied to the context before the rest is looked at. A component is what stands before the first
of its separators in all that is left, wherever that separator stands.
-/

namespace CodeStudy.Samba

/-- The bytes of a text of the program. -/
def ascii (text : String) : Bytes := text.toList.map Char.toUInt8

inductive Smb2NegotiateVersion where
  | any | any2 | any3 | max210 | max300 | max302 | max311 | v0202 | v0210 | v0300 | v0302 | v0311
  deriving DecidableEq, Repr

/-- The fields of a context that a URL may change. -/
structure UrlSettings where
  sec : Smb2Sec
  useCachedCreds : Bool
  version : Smb2NegotiateVersion
  deriving DecidableEq

structure Smb2Url where
  domain : Bytes := []
  user : Bytes := []
  server : Bytes := []
  share : Bytes := []
  path : Bytes := []
  deriving DecidableEq

def maxUrlSize : Nat := 256

/-! ### Arguments -/

/-- One turn of the loop over the arguments. The value is a null pointer where there is no equals sign. -/
def smb2ParseArg (smb2 : UrlSettings) (args : Bytes) (value : Option Bytes) :
    Except Fault (UrlSettings × Except Bytes Unit) :=
  if args = ascii "sec" then
    match value with
    | none => .error .undefined
    | some value =>
        if value = ascii "krb5" then .ok ({ smb2 with sec := .krb5 }, .ok ())
        else if value = ascii "krb5cc" then .ok ({ smb2 with sec := .krb5, useCachedCreds := true }, .ok ())
        else if value = ascii "ntlmssp" then .ok ({ smb2 with sec := .ntlmssp }, .ok ())
        else .ok (smb2, .error (ascii "Unknown sec= argument: " ++ value))
  else if args = ascii "vers" then
    match value with
    | none => .error .undefined
    | some value =>
        if value = ascii "2" then .ok ({ smb2 with version := .any2 }, .ok ())
        else if value = ascii "3" then .ok ({ smb2 with version := .any3 }, .ok ())
        else if value = ascii "2.02" then .ok ({ smb2 with version := .v0202 }, .ok ())
        else if value = ascii "2.10" then .ok ({ smb2 with version := .v0210 }, .ok ())
        else if value = ascii "3.0" ∨ value = ascii "3.00" then .ok ({ smb2 with version := .v0300 }, .ok ())
        else if value = ascii "3.02" then .ok ({ smb2 with version := .v0302 }, .ok ())
        else if value = ascii "3.11" then .ok ({ smb2 with version := .v0311 }, .ok ())
        else .ok (smb2, .error (ascii "Unknown vers= argument: " ++ value))
  else .ok (smb2, .error (ascii "Unknown argument: " ++ args))

/-- The pointer is null behind the last argument. -/
def smb2ParseArgs (smb2 : UrlSettings) (args : Option Bytes) : Except Fault (UrlSettings × Except Bytes Unit) :=
  match args with
  | none => .ok (smb2, .ok ())
  | some args =>
      if _hargs : args = [] then .ok (smb2, .ok ())
      else
        let next := (cutAt '&'.toUInt8 args).2
        let (key, value) := cutAt '='.toUInt8 (cutAt '&'.toUInt8 args).1
        match smb2ParseArg smb2 key value with
        | .ok (smb2, .ok ()) => smb2ParseArgs smb2 next
        | other => other
termination_by (args.getD []).length
decreasing_by exact length_lt_of_cutAt _ _hargs

/-! ### Components -/

/-- A component that its separator ends. Where there is no separator it stays empty. -/
def cutComponent (sep : UInt8) (ptr : Bytes) : Bytes × Bytes :=
  match cutAt sep ptr with
  | (component, some tmp) => (component, tmp)
  | (_, none) => ([], ptr)

def urlComponents (str : Bytes) : Smb2Url :=
  let (domain, ptr) := cutComponent ';'.toUInt8 str
  let (user, ptr) := cutComponent '@'.toUInt8 ptr
  let (server, ptr) := cutComponent '/'.toUInt8 ptr
  match cutAt '/'.toUInt8 ptr with
  | (share, none) => { domain, user, server, share }
  | (share, some path) => { domain, user, server, share, path }

theorem domain_urlComponents (str : Bytes) : (urlComponents str).domain = (cutComponent ';'.toUInt8 str).1 := by
  simp only [urlComponents]
  split <;> rfl

theorem user_urlComponents (str : Bytes) :
    (urlComponents str).user = (cutComponent '@'.toUInt8 (cutComponent ';'.toUInt8 str).2).1 := by
  simp only [urlComponents]
  split <;> rfl

/-- The context's settings afterwards, and the URL or the text of an error in the place of a null pointer. -/
def smb2ParseUrl (smb2 : UrlSettings) (url : Bytes) : Except Fault (UrlSettings × Except Bytes Smb2Url) :=
  let url := cString url
  if url.take 6 ≠ ascii "smb://" then .ok (smb2, .error (ascii "URL does not start with 'smb://'"))
  else if (url.drop 6).length ≥ maxUrlSize then .ok (smb2, .error (ascii "URL is too long"))
  else
    match cutAt '?'.toUInt8 (url.drop 6) with
    | (str, none) => .ok (smb2, .ok (urlComponents str))
    | (str, some args) => do
        let (smb2, ret) ← smb2ParseArgs smb2 (some args)
        match ret with
        | .error error => .ok (smb2, .error error)
        | .ok () => .ok (smb2, .ok (urlComponents str))

/-! ### Spelling a URL -/

/-- The components of a URL, and which of them are left out. -/
structure UrlParts where
  domain : Option Bytes
  user : Option Bytes
  server : Bytes
  share : Bytes
  path : Option Bytes

namespace UrlParts

/-- An optional component with the separator that ends it. -/
def ended (sep : UInt8) : Option Bytes → Bytes
  | none => []
  | some component => component ++ [sep]

/-- Share and path. -/
def tail (parts : UrlParts) : Bytes :=
  match parts.path with
  | none => parts.share
  | some path => parts.share ++ '/'.toUInt8 :: path

/-- What stands behind `smb://`. -/
def text (parts : UrlParts) : Bytes :=
  ended ';'.toUInt8 parts.domain ++ (ended '@'.toUInt8 parts.user ++ (parts.server ++ '/'.toUInt8 :: parts.tail))

def url (parts : UrlParts) : Bytes := ascii "smb://" ++ parts.text

/-- The components as they are returned, the absent ones empty. -/
def components (parts : UrlParts) : Smb2Url where
  domain := parts.domain.getD []
  user := parts.user.getD []
  server := parts.server
  share := parts.share
  path := parts.path.getD []

end UrlParts

/-- Components that can be told apart: only the path may have separators in it. -/
structure PlainParts extends UrlParts where
  noSeparator : ∀ component ∈ [domain.getD [], user.getD [], server, share], ∀ c ∈ ascii ";@/?", c ∉ component
  noQuery : '?'.toUInt8 ∉ path.getD []
  noTerminator : (0 : UInt8) ∉ toUrlParts.text
  length_lt : toUrlParts.text.length < maxUrlSize

/-- A component is found if it is there, or if nothing behind it looks like its end. -/
theorem cutComponent_eq {sep : UInt8} {part : Option Bytes} (hpart : sep ∉ part.getD []) {rest : Bytes}
    (h : part = none → sep ∉ rest) : cutComponent sep (UrlParts.ended sep part ++ rest) = (part.getD [], rest) := by
  cases part with
  | some component =>
      have hnotMem : sep ∉ component := hpart
      rw [UrlParts.ended, List.append_assoc, List.singleton_append, cutComponent, cutAt_first hnotMem]
      rfl
  | none =>
      rw [UrlParts.ended, List.nil_append, cutComponent, cutAt_of_notMem (h rfl)]
      rfl

/-- A separator far behind ends a component that is not there. -/
theorem cutComponent_fst_ne_nil {sep : UInt8} {first rest : Bytes} (hfirst : sep ∉ first) (hne : first ≠ [])
    (hmem : sep ∈ rest) : (cutComponent sep (first ++ rest)).1 ≠ [] := by
  obtain ⟨front, back, rfl, hfront⟩ := List.eq_append_cons_of_mem hmem
  rw [cutComponent, cutAt_append hfirst, cutAt_first hfront]
  intro h
  exact hne (List.append_eq_nil_iff.mp h).1

namespace UrlParts

theorem mem_tail_iff {parts : UrlParts} {c : UInt8} (hshare : c ∉ parts.share) (hslash : c ≠ '/'.toUInt8) :
    c ∈ parts.tail ↔ c ∈ parts.path.getD [] := by
  rw [tail]
  cases parts.path with
  | none => exact iff_of_false hshare List.not_mem_nil
  | some path =>
      show c ∈ parts.share ++ '/'.toUInt8 :: path ↔ c ∈ path
      rw [List.mem_append, or_iff_right hshare, List.mem_cons, or_iff_right hslash]

/-- Neither a domain nor a user is left out in front of a path that has its separator in it. -/
structure Unambiguous (parts : UrlParts) : Prop where
  domain : parts.domain = none → ';'.toUInt8 ∉ parts.path.getD []
  user : parts.user = none → '@'.toUInt8 ∉ parts.path.getD []

end UrlParts

namespace PlainParts

variable (parts : PlainParts)

theorem notMem {component : Bytes} {c : UInt8}
    (hmem : component ∈ [parts.domain.getD [], parts.user.getD [], parts.server, parts.share])
    (hc : c ∈ ascii ";@/?") : c ∉ component :=
  parts.noSeparator component hmem c hc

theorem notMem_ended {sep c : UInt8} {part : Option Bytes} (hpart : c ∉ part.getD []) (hc : c ≠ sep) :
    c ∉ UrlParts.ended sep part := by
  cases part with
  | none => exact List.not_mem_nil
  | some component =>
      rw [UrlParts.ended, List.mem_append, List.mem_singleton, not_or]
      exact ⟨hpart, hc⟩

/-- Neither of the first two separators stands in front of the share. -/
theorem notMem_first {c : UInt8} (hc : c = ';'.toUInt8 ∨ c = '@'.toUInt8) : c ∉ parts.server ++ ['/'.toUInt8] := by
  have hslash : c ≠ '/'.toUInt8 := by rcases hc with rfl | rfl <;> decide
  have hsep : c ∈ ascii ";@/?" := by rcases hc with rfl | rfl <;> decide
  rw [List.mem_append, List.mem_singleton, not_or]
  exact ⟨parts.notMem (by simp) hsep, hslash⟩

theorem mem_tail_iff {c : UInt8} (hc : c = ';'.toUInt8 ∨ c = '@'.toUInt8) : c ∈ parts.tail ↔ c ∈ parts.path.getD [] := by
  refine UrlParts.mem_tail_iff (parts.notMem (by simp) ?_) ?_
  · rcases hc with rfl | rfl <;> decide
  · rcases hc with rfl | rfl <;> decide

/-- Behind the domain no semicolon is left, except in the path. -/
theorem notMem_behind_domain (h : ';'.toUInt8 ∉ parts.path.getD []) :
    ';'.toUInt8 ∉ UrlParts.ended '@'.toUInt8 parts.user ++ (parts.server ++ '/'.toUInt8 :: parts.tail) := by
  have hsplit : parts.server ++ '/'.toUInt8 :: parts.tail = parts.server ++ ['/'.toUInt8] ++ parts.tail := by
    rw [List.append_assoc, List.singleton_append]
  rw [hsplit, List.mem_append, List.mem_append, parts.mem_tail_iff (.inl rfl)]
  rintro (hmem | hmem | hmem)
  · exact notMem_ended (parts.notMem (by simp) (by decide)) (by decide) hmem
  · exact parts.notMem_first (.inl rfl) hmem
  · exact h hmem

theorem cutComponent_domain (h : parts.domain = none → ';'.toUInt8 ∉ parts.path.getD []) :
    cutComponent ';'.toUInt8 parts.text = (parts.domain.getD [],
      UrlParts.ended '@'.toUInt8 parts.user ++ (parts.server ++ '/'.toUInt8 :: parts.tail)) :=
  cutComponent_eq (parts.notMem (by simp) (by decide)) fun hnone => parts.notMem_behind_domain (h hnone)

/-- The server and what follows are found behind the user. -/
theorem urlComponents_eq (h : parts.Unambiguous) : urlComponents parts.text = parts.components := by
  have huser : cutComponent '@'.toUInt8 (UrlParts.ended '@'.toUInt8 parts.user ++
      (parts.server ++ '/'.toUInt8 :: parts.tail)) = (parts.user.getD [], parts.server ++ '/'.toUInt8 :: parts.tail) := by
    refine cutComponent_eq (parts.notMem (by simp) (by decide)) fun hnone hmem => ?_
    rw [← List.singleton_append, ← List.append_assoc, List.mem_append, parts.mem_tail_iff (.inr rfl)] at hmem
    rcases hmem with hmem | hmem
    · exact parts.notMem_first (.inr rfl) hmem
    · exact h.user hnone hmem
  have hserver : cutComponent '/'.toUInt8 (parts.server ++ '/'.toUInt8 :: parts.tail) = (parts.server, parts.tail) := by
    rw [cutComponent, cutAt_first (parts.notMem (by simp) (by decide))]
  have hshare : '/'.toUInt8 ∉ parts.share := parts.notMem (by simp) (by decide)
  rw [urlComponents, parts.cutComponent_domain h.domain]
  simp only
  rw [huser]
  simp only
  rw [hserver, UrlParts.components, UrlParts.tail]
  simp only
  cases parts.path with
  | none => rw [cutAt_of_notMem hshare]; rfl
  | some path => rw [cutAt_first hshare]; rfl

/-- A separator in the path is taken for the end of a part that is left out. -/
theorem unambiguous_of_urlComponents (h : urlComponents parts.text = parts.components) : parts.Unambiguous := by
  have hdomain : parts.domain = none → ';'.toUInt8 ∉ parts.path.getD [] := by
    intro hnone hmem
    have hfirst : ';'.toUInt8 ∉ UrlParts.ended '@'.toUInt8 parts.user ++ (parts.server ++ ['/'.toUInt8]) := by
      rw [List.mem_append, not_or]
      exact ⟨notMem_ended (parts.notMem (by simp) (by decide)) (by decide), parts.notMem_first (.inl rfl)⟩
    have htext : parts.text = UrlParts.ended '@'.toUInt8 parts.user ++ (parts.server ++ ['/'.toUInt8]) ++ parts.tail := by
      rw [UrlParts.text, hnone, UrlParts.ended, List.nil_append, List.append_assoc, List.append_assoc,
        List.singleton_append]
    refine cutComponent_fst_ne_nil hfirst (by simp) ((parts.mem_tail_iff (.inl rfl)).mpr hmem) ?_
    rw [← htext, ← domain_urlComponents, h, UrlParts.components, hnone]
    rfl
  refine ⟨hdomain, fun hnone hmem => ?_⟩
  refine cutComponent_fst_ne_nil (parts.notMem_first (.inr rfl)) (by simp) ((parts.mem_tail_iff (.inr rfl)).mpr hmem) ?_
  have huser := congrArg Smb2Url.user h
  rw [user_urlComponents, parts.cutComponent_domain hdomain, UrlParts.components, hnone] at huser
  rw [List.append_assoc, List.singleton_append]
  exact huser

/-- The text has no terminator and no question mark, and is short enough. -/
theorem smb2ParseUrl_url (smb2 : UrlSettings) :
    smb2ParseUrl smb2 parts.url = .ok (smb2, .ok (urlComponents parts.text)) := by
  have hscheme : (ascii "smb://").length = 6 := rfl
  have hstring : cString parts.url = parts.url := by
    refine List.takeWhile_eq_self_iff.mpr fun c hc => ?_
    rw [UrlParts.url, List.mem_append] at hc
    rw [decide_eq_true_eq]
    rintro rfl
    rcases hc with hc | hc
    · exact absurd hc (by decide)
    · exact parts.noTerminator hc
  have hquery : '?'.toUInt8 ∉ parts.text := by
    have hpart {component : Bytes}
        (hmem : component ∈ [parts.domain.getD [], parts.user.getD [], parts.server, parts.share]) :
        '?'.toUInt8 ∉ component := parts.notMem hmem (by decide)
    simp only [UrlParts.text, List.mem_append, List.mem_cons, not_or]
    refine ⟨notMem_ended (hpart (by simp)) (by decide), notMem_ended (hpart (by simp)) (by decide), hpart (by simp),
      by decide, fun hmem => ?_⟩
    exact parts.noQuery ((UrlParts.mem_tail_iff (hpart (by simp)) (by decide)).mp hmem)
  rw [smb2ParseUrl, hstring, UrlParts.url, List.take_left' hscheme, List.drop_left' hscheme]
  simp only
  rw [if_neg (not_not.mpr rfl), if_neg (not_le.mpr parts.length_lt), cutAt_of_notMem hquery]

end PlainParts

/-- A URL gives its components back if and only if no domain is left out in front of a path with a semicolon,
and no user in front of a path with an at sign. -/
theorem smb2ParseUrl_eq_components_iff (parts : PlainParts) (smb2 : UrlSettings) :
    smb2ParseUrl smb2 parts.url = .ok (smb2, .ok parts.components) ↔ parts.Unambiguous := by
  rw [parts.smb2ParseUrl_url, Except.ok.injEq, Prod.mk.injEq, eq_self, true_and, Except.ok.injEq]
  exact ⟨parts.unambiguous_of_urlComponents, parts.urlComponents_eq⟩

/-- A file whose name has a semicolon, without domain and user. -/
def semicolonName : PlainParts where
  domain := none
  user := none
  server := ascii "server"
  share := ascii "share"
  path := some (ascii "a;b")
  noSeparator := by
    have hall : ([[], [], ascii "server", ascii "share"].all fun component =>
        (ascii ";@/?").all fun c => !component.contains c) = true := by decide
    intro component hcomponent c hc hmem
    have hnone := List.all_eq_true.mp (List.all_eq_true.mp hall component hcomponent) c hc
    simp [hmem] at hnone
  noQuery := by decide
  noTerminator := by decide
  length_lt := by decide

/-- Server and share are taken for the domain, and the end of the path for the share. -/
theorem smb2ParseUrl_semicolonName :
    smb2ParseUrl ⟨.undefined, false, .any⟩ semicolonName.url =
        .ok (⟨.undefined, false, .any⟩, .ok { domain := ascii "server/share/a", share := ascii "b" }) ∧
      smb2ParseUrl ⟨.undefined, false, .any⟩ semicolonName.url ≠
        .ok (⟨.undefined, false, .any⟩, .ok semicolonName.components) := by
  have hparsed : smb2ParseUrl ⟨.undefined, false, .any⟩ semicolonName.url =
      .ok (⟨.undefined, false, .any⟩, .ok { domain := ascii "server/share/a", share := ascii "b" }) := rfl
  refine ⟨hparsed, fun h => ?_⟩
  rw [hparsed, Except.ok.injEq, Prod.mk.injEq, Except.ok.injEq] at h
  exact absurd (congrArg Smb2Url.domain h.2) (by decide)

end CodeStudy.Samba

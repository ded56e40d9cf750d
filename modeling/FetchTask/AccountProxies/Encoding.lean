import FetchTask.AccountProxies.Kept
import FetchTask.Lib.Uri
import Mathlib.Data.List.DropRight

/-!
The address of an account proxy, and reading it again.

`account_proxy_url` writes an entry as an address with an escaped user name and
password. Reading that address as a line gives the entry back, unless the escapes
have made it longer than a line may be.
-/

namespace FetchTask.AccountProxies

/-! ### The library, as it is specified -/

def lowerHost (lower : String → String) (host : List Char) : String :=
  let (name, zone) := Uri.cut (· == '%') host
  lower (String.ofList name) ++ String.ofList zone

def readPort : Option (List Char) → Option (Option Int)
  | none => some none
  | some [] => some none
  | some digits =>
    let port := Nat.ofDigitChars 10 digits 0
    if digits.all Char.isDigit ∧ port ≤ 65535 then some (some port) else none

/-- `urlsplit`: the parts, with the user name and the password apart. -/
def urlsplit (lower : String → String) (url : String) : Option UrlParts :=
  let parts := Uri.split url.toList
  let authority := (Uri.splitAuthority (Uri.splitScheme url.toList).2).1
  if decide ('[' ∈ authority) ≠ decide (']' ∈ authority) then none
  else
    let credentials := parts.userinfo.map (Uri.cut (· == ':'))
    some
      { scheme := lower (String.ofList parts.scheme)
        hostname := if parts.host = [] then none else some (lowerHost lower parts.host)
        port := readPort parts.port
        username := credentials.map fun p => String.ofList p.1
        password := credentials.bind fun p => p.2.tail?.map String.ofList
        path := String.ofList parts.path
        query := String.ofList parts.query
        fragment := String.ofList parts.fragment }

def unquote (text : String) : String := String.ofList (Uri.unquote text.toList)

def quote (text : String) : String := String.ofList (Uri.quote text.toList)

/-- What is relied on of the functions of the language. A lowered text stays as it is, also
where its end is cut off; an address without colons is written with digits and full stops. -/
structure Library.Standard (L : Library) : Prop where
  urlsplit : ∀ url, L.urlsplit url = AccountProxies.urlsplit L.lower url
  unquote : ∀ text, L.unquote text = AccountProxies.unquote text
  lower_ascii : ∀ s : String, (∀ c ∈ s.toList, c.toNat < 128) →
    L.lower s = String.ofList (s.toList.map Char.toLower)
  lower_prefix : ∀ s t : String, t.toList <+: (L.lower s).toList → L.lower t = t
  isAlnum_ascii : ∀ c : Char, c.toNat < 128 → L.isAlnum c = c.isAlphanum
  isSpace_ascii : ∀ c : Char, c.toNat < 128 → L.isSpace c = isStrSpace c
  ipAddress_dotted : ∀ host address, L.ipAddress host = some address → ':' ∉ host.toList →
    ∀ c ∈ host.toList, c.isDigit || c == '.'

/-! ### Writing an address -/

section Writing

variable (L : Library)

def accountProxyUrlFor (scheme host : String) (port : Int) (username password : String) :
    Except StoreError String := do
  let normalizedScheme ← validateProxyApiScheme L scheme
  let normalizedHost := L.strip host
  if normalizedHost = "" ∨ port = 0 ∨ username = "" ∨ password = "" then return ""
  else
    let credentials := quote username ++ ":" ++ quote password
    return normalizedScheme ++ "://" ++ credentials ++ "@" ++ normalizedHost ++ ":" ++ toString port

def accountProxyUrl (entry : AccountProxy) : Except StoreError String :=
  accountProxyUrlFor L (textOr entry.scheme "socks5") entry.host entry.port entry.username
    entry.password

end Writing

/-- The fields that a proxy is known by. -/
structure SameProxy (entry entry' : AccountProxy) : Prop where
  id : entry.id = entry'.id
  scheme : entry.scheme = entry'.scheme
  host : entry.host = entry'.host
  port : entry.port = entry'.port
  username : entry.username = entry'.username
  password : entry.password = entry'.password

/-! ### Texts -/

section Texts

variable {α : Type} {p : α → Bool}

theorem dropWhile_eq_self {l : List α} (h : ∀ a ∈ l, p a = false) : l.dropWhile p = l := by
  cases l with
  | nil => rfl
  | cons a l => rw [List.dropWhile_cons, if_neg (by rw [h a List.mem_cons_self]; decide)]

/-- The beginning of a list from which nothing is dropped. -/
theorem dropWhile_prefix {l l' : List α} (hpre : l' <+: l) (h : l.dropWhile p = l) :
    l'.dropWhile p = l' := by
  cases l' with
  | nil => rfl
  | cons a l' =>
    obtain ⟨rest, rfl⟩ := hpre
    have hkeep : ¬ p a = true := by
      intro ha
      rw [List.cons_append, List.dropWhile_cons, if_pos ha] at h
      have hshort := (List.dropWhile_suffix p (l := l' ++ rest)).length_le
      rw [h] at hshort
      simp only [List.length_cons, List.length_append] at hshort
      omega
    rw [List.dropWhile_cons, if_neg hkeep]

theorem prefix_rdropWhile (l : List α) : (l.reverse.dropWhile p).reverse <+: l := by
  have hsuffix := List.reverse_prefix.mpr (List.dropWhile_suffix p (l := l.reverse))
  rwa [List.reverse_reverse] at hsuffix

theorem strip_eq_self {u : Chars} {s : String} (h : ∀ c ∈ s.toList, u.isSpace c = false) :
    u.strip s = s := by
  rw [Chars.strip, dropWhile_eq_self h,
    dropWhile_eq_self fun c hc => h c (List.mem_reverse.mp hc), List.reverse_reverse,
    String.ofList_toList]

theorem strip_strip (u : Chars) (s : String) : u.strip (u.strip s) = u.strip s := by
  have hfirst : (s.toList.dropWhile u.isSpace).dropWhile u.isSpace = s.toList.dropWhile u.isSpace :=
    List.dropWhile_idempotent _ _
  have hkept := dropWhile_prefix (prefix_rdropWhile (p := u.isSpace) _) hfirst
  rw [Chars.strip, Chars.strip, String.toList_ofList, hkept, List.reverse_reverse,
    List.dropWhile_idempotent]

end Texts

/-! ### Hosts -/

def badHostChars : List Char := "\r\n\x00/@?#:".toList

/-- What the check of a host accepts. -/
structure HostOk (L : Library) (host : String) : Prop where
  nonempty : host ≠ ""
  length : host.length ≤ 253
  chars : ∀ c ∈ host.toList, c ∉ badHostChars ∧ L.isSpace c = false
  allowed : host ≠ "localhost" ∧ ¬ ".localhost".toList <:+ host.toList
  lower : L.lower host = host
  noDots : host.toList.reverse.dropWhile (· == '.') = host.toList.reverse
  address : (L.ipAddress host = none ∧ (splitAll '.' host).all (validLabel L) = true) ∨
    ∃ address, L.ipAddress host = some address ∧
      (address.isLoopback || address.isUnspecified || address.isLinkLocal) = false

section Reading

variable {L : Library} (hL : L.Standard) {host : String}

include hL in
theorem hostOk_of_validate {value : Option String}
    (h : validateProxyAccountHost L value = .ok host) : HostOk L host := by
  rw [validateProxyAccountHost] at h
  generalize hlowered : L.lower (L.strip (value.getD "")) = lowered at h
  generalize hcut : String.ofList (lowered.toList.reverse.dropWhile (· == '.')).reverse = cut at h
  have hpre : cut.toList <+: lowered.toList := by
    rw [← hcut, String.toList_ofList]
    exact prefix_rdropWhile _
  have hlower : L.lower cut = cut := hL.lower_prefix _ cut (hlowered ▸ hpre)
  have hdots : cut.toList.reverse.dropWhile (· == '.') = cut.toList.reverse := by
    rw [← hcut, String.toList_ofList, List.reverse_reverse, List.dropWhile_idempotent]
  split at h
  next => cases h
  next hshape =>
    simp only [not_or, Bool.not_eq_true, List.any_eq_false] at hshape
    obtain ⟨hnonempty, hlength, hchars⟩ := hshape
    split at h
    next => cases h
    next hname =>
      have hok : (L.ipAddress cut = none ∧ (splitAll '.' cut).all (validLabel L) = true) ∨
          (∃ address, L.ipAddress cut = some address ∧
            (address.isLoopback || address.isUnspecified || address.isLinkLocal) = false) →
          HostOk L cut := by
        intro haddress
        refine ⟨hnonempty, not_lt.mp hlength, fun c hc => ?_, not_or.mp hname, hlower, hdots,
          haddress⟩
        have hgood := hchars c hc
        rw [Bool.or_eq_false_iff, List.contains_eq_mem] at hgood
        exact ⟨of_decide_eq_false hgood.1, hgood.2⟩
      split at h
      next hnone =>
        split at h
        next hlabels =>
          obtain rfl := Except.ok.inj h
          exact hok (.inl ⟨hnone, hlabels⟩)
        next => cases h
      next address hsome =>
        split at h
        next => cases h
        next hgood =>
          obtain rfl := Except.ok.inj h
          exact hok (.inr ⟨address, hsome, by simpa using hgood⟩)

theorem HostOk.validate (h : HostOk L host) : validateProxyAccountHost L (some host) = .ok host := by
  have hstrip : L.strip host = host := strip_eq_self fun c hc => (h.chars c hc).2
  have hdots : String.ofList (host.toList.reverse.dropWhile (· == '.')).reverse = host := by
    rw [h.noDots, List.reverse_reverse, String.ofList_toList]
  have hchars : host.toList.any (fun c => "\r\n\x00/@?#:".toList.contains c || L.isSpace c) = false := by
    refine List.any_eq_false.mpr fun c hc => ?_
    obtain ⟨hbad, hspace⟩ := h.chars c hc
    have hnot : "\r\n\x00/@?#:".toList.contains c = false := by
      rw [List.contains_eq_mem]
      exact decide_eq_false hbad
    rw [hnot, hspace]
    decide
  have hlength := h.length
  rw [validateProxyAccountHost]
  simp only [Option.getD_some, hstrip, h.lower, hdots]
  rw [if_neg (by simp only [hchars, h.nonempty]; simpa using hlength), if_neg (by simpa using h.allowed)]
  rcases h.address with ⟨hnone, hlabels⟩ | ⟨address, hsome, hgood⟩
  · rw [hnone]
    exact if_pos hlabels
  · rw [hsome]
    exact if_neg (by rw [hgood]; decide)

theorem mem_splitMax {sep c : Char} {n : Nat} {cs : List Char} (h : c ∈ cs) :
    c = sep ∨ ∃ part ∈ splitMax sep n cs, c ∈ part := by
  induction n generalizing cs with
  | zero => exact .inr ⟨cs, List.mem_singleton.mpr rfl, h⟩
  | succ n ih =>
    rw [splitMax]
    rw [← List.takeWhile_append_dropWhile (p := (· ≠ sep)) (l := cs)] at h
    split
    next hnone =>
      rw [hnone, List.append_nil] at h
      exact .inr ⟨cs, List.mem_singleton.mpr rfl, List.takeWhile_subset _ h⟩
    next d rest hrest =>
      rw [hrest] at h
      rcases List.mem_append.mp h with h | h
      · exact .inr ⟨_, List.mem_cons_self, h⟩
      · rcases List.mem_cons.mp h with rfl | h
        · have hsep := List.head_dropWhile_not (fun x => decide (x ≠ sep)) (l := cs)
            (by rw [hrest]; exact List.cons_ne_nil _ _)
          simp only [hrest, List.head_cons] at hsep
          exact .inl (by simpa using hsep)
        · rcases ih h with hsep | ⟨part, hpart, hc⟩
          · exact .inl hsep
          · exact .inr ⟨part, List.mem_cons_of_mem _ hpart, hc⟩

include hL in
theorem HostOk.not_bracket (h : HostOk L host) {c : Char} (hc : c ∈ host.toList) :
    c ∉ ['[', ']', '%'] := by
  intro hbad
  have hascii : c.toNat < 128 ∧ c.isAlphanum = false ∧ c ≠ '-' ∧ c ≠ '.' ∧ c.isDigit = false := by
    have hall : ∀ c ∈ ['[', ']', '%'], c.toNat < 128 ∧ c.isAlphanum = false ∧ c ≠ '-' ∧ c ≠ '.' ∧
      c.isDigit = false := List.all_iff_forall_prop.mp (by decide)
    exact hall c hbad
  obtain ⟨hlt, halnum, hhyphen, hdot, hdigit⟩ := hascii
  rcases h.address with ⟨-, hlabels⟩ | ⟨address, hsome, -⟩
  · have hpart : c = '.' ∨ ∃ part ∈ splitMax '.' host.length host.toList, c ∈ part := mem_splitMax hc
    rcases hpart with heq | ⟨part, hpart, hmem⟩
    · exact hdot heq
    · have hlabel := List.all_eq_true.mp hlabels (String.ofList part)
        (List.mem_map.mpr ⟨part, hpart, rfl⟩)
      rw [validLabel, Bool.and_eq_true, List.all_eq_true] at hlabel
      have hchar := hlabel.2 c (by rwa [String.toList_ofList])
      rw [hL.isAlnum_ascii c hlt, halnum, Bool.false_or] at hchar
      exact hhyphen (beq_iff_eq.mp hchar)
  · have hcolon : ':' ∉ host.toList := fun hmem => (h.chars ':' hmem).1 (by decide)
    have hchar := hL.ipAddress_dotted host address hsome hcolon c hc
    rw [hdigit, Bool.false_or] at hchar
    exact hdot (beq_iff_eq.mp hchar)

include hL in
theorem HostOk.plain (h : HostOk L host) : Uri.Plain host.toList := by
  intro c hc hmem
  have hsplit : ∀ c ∈ ['/', '?', '#', '@', '[', ']'], c ∈ badHostChars ∨ c ∈ ['[', ']', '%'] :=
    List.all_iff_forall_prop.mp (by decide)
  rcases hsplit c hmem with hbad | hbad
  · exact (h.chars c hc).1 hbad
  · exact h.not_bracket hL hc hbad

/-! ### Reading an address -/

/-- What a line that is read gives. -/
structure EntryOk (L : Library) (entry : AccountProxy) : Prop where
  scheme : entry.scheme ∈ validProxyServerSchemes
  host : HostOk L entry.host
  port : 1 ≤ entry.port ∧ entry.port ≤ 65535
  username : L.strip entry.username = entry.username
  credentials : entry.username ≠ "" ∧ entry.password ≠ ""
  lengths : entry.username.length ≤ 300 ∧ entry.password.length ≤ 500
  id : entry.id = entryId L entry.scheme entry.host entry.port entry.username entry.password

theorem scheme_of_validate {value scheme : String} (h : validateProxyApiScheme L value = .ok scheme) :
    scheme ∈ validProxyServerSchemes := by
  rw [validateProxyApiScheme] at h
  split at h
  next hmem =>
    obtain rfl := Except.ok.inj h
    exact hmem
  next => cases h

include hL in
theorem parts_of_colons {line scheme username password : String} {port : Int}
    (h : parseColons L line = .ok (scheme, host, port, username, password)) :
    scheme ∈ validProxyServerSchemes ∧ HostOk L host := by
  rw [parseColons] at h
  split at h
  next =>
    obtain ⟨checked, hchecked, hrest⟩ := bind_ok h
    split at hrest
    next => cases hrest
    next =>
      simp only [Except.ok.injEq, Prod.mk.injEq] at hrest
      obtain ⟨rfl, rfl, -⟩ := hrest
      exact ⟨by decide, hostOk_of_validate hL hchecked⟩
  next => cases h

include hL in
theorem parts_of_url {line scheme username password : String} {port : Int}
    (h : parseUrl L line = .ok (scheme, host, port, username, password)) :
    scheme ∈ validProxyServerSchemes ∧ HostOk L host := by
  rw [parseUrl] at h
  split at h
  next => cases h
  next =>
    split at h
    next hscheme hhost hport =>
      split at h
      next => cases h
      next =>
        simp only [Except.ok.injEq, Prod.mk.injEq] at h
        obtain ⟨rfl, rfl, -⟩ := h
        exact ⟨scheme_of_validate hscheme, hostOk_of_validate hL hhost⟩
    next => cases h

/-- The checks that both formats have in common. -/
theorem entryOk_of_checks {scheme username password now : String} {port : Int}
    {entry : AccountProxy} (hscheme : scheme ∈ validProxyServerSchemes) (hhost : HostOk L host)
    (h : (if port < 1 ∨ 65535 < port then .error (.valueError portOutOfRange)
      else if L.strip username = "" ∨ password = "" then .error (.valueError missingCredentials)
      else if 300 < (L.strip username).length ∨ 500 < password.length then
        .error (.valueError longCredentials)
      else .ok (newEntry L scheme host port (L.strip username) password now) :
        Except StoreError AccountProxy) = .ok entry) : EntryOk L entry := by
  split at h
  next => cases h
  next hport =>
    split at h
    next => cases h
    next hcredentials =>
      split at h
      next => cases h
      next hlengths =>
        obtain rfl := Except.ok.inj h
        have hstrip : L.strip (L.strip username) = L.strip username := strip_strip L.toChars username
        have hrange : 1 ≤ port ∧ port ≤ 65535 := by omega
        have hshort : (L.strip username).length ≤ 300 ∧ password.length ≤ 500 := by omega
        exact ⟨hscheme, hhost, hrange, hstrip, not_or.mp hcredentials, hshort, rfl⟩

include hL in
theorem entryOk_of_parse {value now : String} {entry : AccountProxy}
    (h : parseAccountProxyLine L value now = .ok entry) : EntryOk L entry := by
  rw [parseAccountProxyLine] at h
  split at h
  next => cases h
  next =>
    dsimp only at h
    split at h
    · obtain ⟨⟨scheme, host, port, username, password⟩, hparts, hchecks⟩ := bind_ok h
      obtain ⟨hscheme, hhost⟩ := parts_of_colons hL hparts
      exact entryOk_of_checks hscheme hhost hchecks
    · obtain ⟨⟨scheme, host, port, username, password⟩, hparts, hchecks⟩ := bind_ok h
      obtain ⟨hscheme, hhost⟩ := parts_of_url hL hparts
      exact entryOk_of_checks hscheme hhost hchecks

/-! ### The address of an entry -/

/-- The address, by its parts. -/
def address (entry : AccountProxy) : List Char :=
  entry.scheme.toList ++ ':' :: '/' :: '/' ::
    ((Uri.quote entry.username.toList ++ ':' :: Uri.quote entry.password.toList) ++
      '@' :: (entry.host.toList ++ ':' :: Nat.toDigits 10 entry.port.toNat))

/-- A character that a line may hold anywhere. -/
def Printed (L : Library) (c : Char) : Prop := L.isSpace c = false ∧ c ∉ "\r\n\x00".toList

theorem scheme_chars : ∀ scheme ∈ validProxyServerSchemes,
    scheme ≠ "" ∧ Uri.isScheme scheme.toList = true ∧
      String.ofList (scheme.toList.map Char.toLower) = scheme ∧
      ∀ c ∈ scheme.toList, c.toNat < 128 ∧ isStrSpace c = false ∧ c ∉ "\r\n\x00".toList := by
  intro scheme hscheme
  have hall : ∀ scheme ∈ validProxyServerSchemes, scheme ≠ "" ∧ Uri.isScheme scheme.toList = true ∧
      String.ofList (scheme.toList.map Char.toLower) = scheme ∧
      scheme.toList.all fun c => c.toNat < 128 ∧ isStrSpace c = false ∧ c ∉ "\r\n\x00".toList := by
    decide
  obtain ⟨hne, hscheme, hlower, hchars⟩ := hall scheme hscheme
  exact ⟨hne, hscheme, hlower, List.all_iff_forall_prop.mp hchars⟩

/-- What an escaped text is made of is no white space, no end of a line and no delimiter. -/
theorem quoted_char {c : Char} (h : c.toNat < 128 ∧ Uri.isQuoted c = true) :
    isStrSpace c = false ∧ c ∉ "\r\n\x00".toList ∧ c ∉ ['/', '?', '#', '@', '[', ']'] ∧ c ≠ ':' := by
  refine Uri.of_ascii (P := fun c => Uri.isQuoted c = true → isStrSpace c = false ∧
    c ∉ "\r\n\x00".toList ∧ c ∉ ['/', '?', '#', '@', '[', ']'] ∧ c ≠ ':') ?_ h.1 h.2
  decide

theorem digit_quoted {c : Char} (h : c.isDigit = true) : c.toNat < 128 ∧ Uri.isQuoted c = true := by
  refine ⟨?_, by simp [Uri.isQuoted, Char.isAlphanum, h]⟩
  have hrange := (Bool.and_eq_true_iff.mp h).2
  have hle : c.toNat ≤ 57 := UInt32.le_iff_toNat_le.mp (of_decide_eq_true hrange)
  omega

theorem plain_of_quoted {cs : List Char} (h : ∀ c ∈ cs, c.toNat < 128 ∧ Uri.isQuoted c = true) :
    Uri.Plain cs := fun c hc => (quoted_char (h c hc)).2.2.1

theorem mem_digits {n : Nat} {c : Char} (h : c ∈ Nat.toDigits 10 n) :
    c.toNat < 128 ∧ Uri.isQuoted c = true :=
  digit_quoted (Nat.isDigit_of_mem_toDigits (by decide) (by decide) h)

include hL in
theorem printed_of_quoted {c : Char} (h : c.toNat < 128 ∧ Uri.isQuoted c = true) : Printed L c :=
  ⟨(hL.isSpace_ascii c h.1).trans (quoted_char h).1, (quoted_char h).2.1⟩

variable {entry : AccountProxy}

include hL in
theorem address_printed (h : EntryOk L entry) {c : Char} (hc : c ∈ address entry) :
    Printed L c := by
  have hdelimiter : ∀ c ∈ [':', '/', '@'], Printed L c := by
    intro c hc
    have hascii : ∀ c ∈ [':', '/', '@'], c.toNat < 128 ∧ isStrSpace c = false ∧
        c ∉ "\r\n\x00".toList := List.all_iff_forall_prop.mp (by decide)
    obtain ⟨hlt, hspace, hline⟩ := hascii c hc
    exact ⟨(hL.isSpace_ascii c hlt).trans hspace, hline⟩
  simp only [address, List.mem_append, List.mem_cons] at hc
  rcases hc with hc | rfl | rfl | rfl | (hc | rfl | hc) | rfl | hc | rfl | hc
  · obtain ⟨hlt, hspace, hline⟩ := (scheme_chars _ h.scheme).2.2.2 c hc
    exact ⟨(hL.isSpace_ascii c hlt).trans hspace, hline⟩
  · exact hdelimiter _ (by decide)
  · exact hdelimiter _ (by decide)
  · exact hdelimiter _ (by decide)
  · exact printed_of_quoted hL (Uri.mem_quote hc)
  · exact hdelimiter _ (by decide)
  · exact printed_of_quoted hL (Uri.mem_quote hc)
  · exact hdelimiter _ (by decide)
  · obtain ⟨hbad, hspace⟩ := h.host.chars c hc
    refine ⟨hspace, fun hmem => hbad ?_⟩
    have hsub : ∀ c ∈ "\r\n\x00".toList, c ∈ badHostChars :=
      List.all_iff_forall_prop.mp (by decide)
    exact hsub c hmem
  · exact hdelimiter _ (by decide)
  · exact printed_of_quoted hL (mem_digits hc)

include hL in
theorem validate_scheme (h : EntryOk L entry) :
    validateProxyApiScheme L entry.scheme = .ok entry.scheme := by
  obtain ⟨hne, -, hlowered, hchars⟩ := scheme_chars _ h.scheme
  have hstrip : L.strip entry.scheme = entry.scheme :=
    strip_eq_self fun c hc => (hL.isSpace_ascii c (hchars c hc).1).trans (hchars c hc).2.1
  have hlower : L.lower entry.scheme = entry.scheme :=
    (hL.lower_ascii _ fun c hc => (hchars c hc).1).trans hlowered
  have htext : textOr entry.scheme "http" = entry.scheme := if_neg hne
  rw [validateProxyApiScheme, htext, hstrip, hlower]
  exact if_pos h.scheme

include hL in
theorem accountProxyUrl_eq (h : EntryOk L entry) :
    accountProxyUrl L entry = .ok (String.ofList (address entry)) := by
  have htext : textOr entry.scheme "socks5" = entry.scheme :=
    if_neg (scheme_chars _ h.scheme).1
  have hstrip : L.strip entry.host = entry.host :=
    strip_eq_self fun c hc => (h.host.chars c hc).2
  have hport : entry.port ≠ 0 := by
    have hrange := h.port.1
    omega
  have hsome : ¬ (entry.host = "" ∨ entry.port = 0 ∨ entry.username = "" ∨ entry.password = "") := by
    simp only [not_or]
    exact ⟨h.host.nonempty, hport, h.credentials⟩
  rw [accountProxyUrl, accountProxyUrlFor, htext, validate_scheme hL h]
  show (if L.strip entry.host = "" ∨ _ then _ else _) = _
  rw [hstrip, if_neg hsome]
  have hdigits : (toString entry.port).toList = Nat.toDigits 10 entry.port.toNat := by
    rw [← Int.toNat_of_nonneg (show 0 ≤ entry.port by have hrange := h.port.1; omega)]
    exact Nat.toList_repr
  refine congrArg Except.ok (String.toList_inj.mp ?_)
  simp only [address, quote, String.toList_append, String.toList_ofList, hdigits]
  simp

omit hL in
theorem readPort_digits {port : Int} (h : 1 ≤ port ∧ port ≤ 65535) :
    readPort (some (Nat.toDigits 10 port.toNat)) = some (some port) := by
  have hdigits : (Nat.toDigits 10 port.toNat).all Char.isDigit = true :=
    List.all_eq_true.mpr fun c hc => Nat.isDigit_of_mem_toDigits (by decide) (by decide) hc
  have hvalue : Nat.ofDigitChars 10 (Nat.toDigits 10 port.toNat) 0 = port.toNat :=
    Nat.ofDigitChars_ten_toDigits
  cases hcs : Nat.toDigits 10 port.toNat with
  | nil => exact absurd hcs Nat.toDigits_ne_nil
  | cons c cs =>
    rw [hcs] at hdigits hvalue
    rw [readPort]
    · rw [hvalue, if_pos ⟨hdigits, by omega⟩, Int.toNat_of_nonneg (by omega)]
    · exact List.cons_ne_nil _ _

include hL in
theorem urlsplit_address (h : EntryOk L entry) :
    urlsplit L.lower (String.ofList (address entry)) =
      some
        { scheme := entry.scheme
          hostname := some entry.host
          port := some (some entry.port)
          username := some (quote entry.username)
          password := some (quote entry.password)
          path := ""
          query := ""
          fragment := "" } := by
  obtain ⟨-, hscheme, hlowered, hchars⟩ := scheme_chars _ h.scheme
  have hlower : L.lower entry.scheme = entry.scheme :=
    (hL.lower_ascii _ fun c hc => (hchars c hc).1).trans hlowered
  have huser : ∀ c ∈ Uri.quote entry.username.toList, (c == ':') = false := fun c hc =>
    beq_eq_false_iff_ne.mpr (quoted_char (Uri.mem_quote hc)).2.2.2
  have hcredentials : Uri.Plain
      (Uri.quote entry.username.toList ++ ':' :: Uri.quote entry.password.toList) :=
    (plain_of_quoted fun c hc => Uri.mem_quote hc).append
      ((plain_of_quoted fun c hc => Uri.mem_quote hc).cons (by decide))
  have hhost := h.host.plain hL
  have hcolon : ':' ∉ entry.host.toList := fun hmem => (h.host.chars ':' hmem).1 (by decide)
  have hport : Uri.Plain (Nat.toDigits 10 entry.port.toNat) :=
    plain_of_quoted fun c hc => mem_digits hc
  have hplace : Uri.Plain (entry.host.toList ++ ':' :: Nat.toDigits 10 entry.port.toNat) :=
    hhost.append (hport.cons (by decide))
  obtain ⟨hfirst, hauthority⟩ := Uri.splitAuthority_address hscheme hcredentials hplace
  have hbrackets : ¬ decide ('[' ∈ (Uri.splitAuthority (Uri.splitScheme (address entry)).2).1) ≠
      decide (']' ∈ (Uri.splitAuthority (Uri.splitScheme (address entry)).2).1) := by
    rw [address, hfirst, hauthority]
    rw [decide_eq_false (Uri.not_mem_authority hcredentials hplace (by decide)),
      decide_eq_false (Uri.not_mem_authority hcredentials hplace (by decide))]
    exact fun h => h rfl
  have hname : lowerHost L.lower entry.host.toList = entry.host := by
    have hzone : ∀ c ∈ entry.host.toList, (c == '%') = false := fun c hc =>
      beq_eq_false_iff_ne.mpr fun heq => h.host.not_bracket hL hc (by rw [heq]; decide)
    rw [lowerHost, Uri.cut_all hzone]
    show L.lower (String.ofList entry.host.toList) ++ String.ofList [] = entry.host
    rw [String.ofList_toList, h.host.lower]
    exact String.append_empty
  have hhostChars : entry.host.toList ≠ [] := fun hnil =>
    h.host.nonempty (String.toList_inj.mp hnil)
  have hsplit : Uri.split (address entry) = _ :=
    Uri.split_address hscheme hcredentials hhost hcolon hport
  rw [urlsplit, String.toList_ofList, if_neg hbrackets]
  simp only [hsplit, readPort_digits h.port, hname, Option.map_some, Option.bind_some,
    Uri.cut_append huser (by decide : (':' == ':') = true), String.ofList_toList, hlower,
    if_neg hhostChars]
  rfl

include hL in
theorem unquote_quote (text : String) : L.unquote (quote text) = text := by
  rw [hL.unquote, unquote, quote, String.toList_ofList, Uri.unquote_quote, String.ofList_toList]

include hL in
theorem strip_address (h : EntryOk L entry) :
    L.strip (String.ofList (address entry)) = String.ofList (address entry) := by
  refine strip_eq_self fun c hc => ?_
  rw [String.toList_ofList] at hc
  exact (address_printed hL h hc).1

omit hL in
theorem containsText_address (entry : AccountProxy) :
    containsText "://" (String.ofList (address entry)) = true := by
  refine decide_eq_true ⟨entry.scheme.toList,
    (Uri.quote entry.username.toList ++ ':' :: Uri.quote entry.password.toList) ++
      '@' :: (entry.host.toList ++ ':' :: Nat.toDigits 10 entry.port.toNat), ?_⟩
  rw [String.toList_ofList]
  simp [address]

include hL in
theorem parseUrl_address (h : EntryOk L entry) :
    parseUrl L (String.ofList (address entry)) =
      .ok (entry.scheme, entry.host, entry.port, entry.username, entry.password) := by
  rw [parseUrl, if_pos (containsText_address entry), hL.urlsplit, urlsplit_address hL h]
  dsimp only
  rw [validate_scheme hL h, h.host.validate]
  dsimp only
  rw [if_neg (by decide)]
  simp only [Option.getD_some, unquote_quote hL]

include hL in
/-- The address of an entry is read as a line that gives the entry, if it is not too long. -/
theorem parse_address (h : EntryOk L entry) (now : String)
    (hlength : (String.ofList (address entry)).length ≤ 2000) :
    parseAccountProxyLine L (String.ofList (address entry)) now =
      .ok (newEntry L entry.scheme entry.host entry.port entry.username entry.password now) := by
  have hprinted : ∀ c ∈ (String.ofList (address entry)).toList, Printed L c := by
    intro c hc
    rw [String.toList_ofList] at hc
    exact address_printed hL h hc
  have hlines : (String.ofList (address entry)).toList.any
      (fun c => "\r\n\x00".toList.contains c) = false := by
    refine List.any_eq_false.mpr fun c hc => ?_
    rw [List.contains_eq_mem, decide_eq_false (hprinted c hc).2]
    decide
  have hnonempty : String.ofList (address entry) ≠ "" := by
    intro hempty
    have hnil : address entry = [] := by
      have hchars := congrArg String.toList hempty
      rwa [String.toList_ofList] at hchars
    simp [address] at hnil
  have hlong : ¬ 2000 < (String.ofList (address entry)).length := not_lt.mpr hlength
  have husername : L.strip entry.username = entry.username := h.username
  have hport : ¬ (entry.port < 1 ∨ 65535 < entry.port) := by
    obtain ⟨hlow, hhigh⟩ := h.port
    omega
  have hcredentials : ¬ (entry.username = "" ∨ entry.password = "") := not_or.mpr h.credentials
  have hshort : ¬ (300 < entry.username.length ∨ 500 < entry.password.length) := by
    obtain ⟨huser, hpassword⟩ := h.lengths
    omega
  have hread : ¬ (String.ofList (address entry) = "" ∨
      2000 < (String.ofList (address entry)).length ∨
      (String.ofList (address entry)).toList.any (fun c => "\r\n\x00".toList.contains c) = true) := by
    rw [hlines]
    simp only [not_or]
    exact ⟨hnonempty, hlong, Bool.false_ne_true⟩
  have hformat : ¬ (!containsText "://" (String.ofList (address entry)) &&
      !containsText "@" (String.ofList (address entry))) = true := by
    rw [containsText_address]
    exact Bool.false_ne_true
  rw [parseAccountProxyLine, strip_address hL h, if_neg hread]
  dsimp only
  rw [if_neg hformat, parseUrl_address hL h]
  show (if entry.port < 1 ∨ 65535 < entry.port then _ else _) = _
  rw [if_neg hport, husername, if_neg hcredentials, if_neg hshort]

/-- A line that is too long is refused. -/
theorem parse_too_long {value now : String} (h : 2000 < (L.strip value).length) :
    parseAccountProxyLine L value now = .error (.valueError badLine) := by
  rw [parseAccountProxyLine]
  exact if_pos (.inr (.inl h))

end Reading

/-- An accepted line, written as an address, is accepted again with the same fields exactly when
the address is no longer than a line may be. -/
theorem encoded_line_iff (L : Library) (hL : L.Standard) (value now now' : String)
    (entry : AccountProxy) (h : parseAccountProxyLine L value now = .ok entry) :
    ∃ url, accountProxyUrl L entry = .ok url ∧
      ((∃ entry', parseAccountProxyLine L url now' = .ok entry' ∧ SameProxy entry' entry) ↔
        url.length ≤ 2000) := by
  have hentry := entryOk_of_parse hL h
  refine ⟨_, accountProxyUrl_eq hL hentry, ?_, fun hlength => ?_⟩
  · rintro ⟨entry', hparse, -⟩
    by_contra hlong
    rw [parse_too_long (by rw [strip_address hL hentry]; exact not_le.mp hlong)] at hparse
    cases hparse
  · refine ⟨_, parse_address hL hentry now' hlength, ?_, rfl, rfl, rfl, rfl, rfl⟩
    exact hentry.id.symm

/-! ### Two lines -/

theorem toLower_toLower (c : Char) : c.toLower.toLower = c.toLower := by
  by_cases hc : c.toNat < 128
  · exact Uri.of_ascii (P := fun c => c.toLower.toLower = c.toLower) (by decide) hc
  · have hsame : c.toLower = c := by
      refine dif_neg ?_
      intro h
      have hle : c.toNat ≤ 90 := UInt32.le_iff_toNat_le.mp h.2
      omega
    rw [hsame, hsame]

/-- The library on ASCII texts and plain numbers, with the escapes of addresses. -/
def asciiLibrary : Library :=
  { plainLibrary with
    isSpace := isStrSpace
    toInt := fun text =>
      if text ≠ "" ∧ text.toList.all Char.isDigit then some (Nat.ofDigitChars 10 text.toList 0)
      else none
    urlsplit := urlsplit plainLibrary.lower
    unquote := unquote }

theorem asciiLibrary_standard : asciiLibrary.Standard where
  urlsplit _ := rfl
  unquote _ := rfl
  lower_ascii _ _ := rfl
  lower_prefix s t h := by
    have hlowered : ∀ c ∈ t.toList, c.toLower = c := by
      intro c hc
      have hmem : c ∈ (String.ofList (s.toList.map Char.toLower)).toList := h.subset hc
      rw [String.toList_ofList] at hmem
      obtain ⟨d, -, rfl⟩ := List.mem_map.mp hmem
      exact toLower_toLower d
    show String.ofList (t.toList.map Char.toLower) = t
    rw [List.map_congr_left hlowered, List.map_id', String.ofList_toList]
  isAlnum_ascii _ _ := rfl
  isSpace_ascii _ _ := rfl
  ipAddress_dotted _ _ h := nomatch h

theorem encoded_line_iff_proxy :
    ∃ entry, parseAccountProxyLine asciiLibrary "proxy.example:1080:jp-user:secret" "t0" = .ok entry ∧
      ∃ url, accountProxyUrl asciiLibrary entry = .ok url ∧
        ((∃ entry', parseAccountProxyLine asciiLibrary url "t1" = .ok entry' ∧
          SameProxy entry' entry) ↔ url.length ≤ 2000) := by
  have hparse : parseAccountProxyLine asciiLibrary "proxy.example:1080:jp-user:secret" "t0" =
      .ok (newEntry asciiLibrary "socks5" "proxy.example" 1080 "jp-user" "secret" "t0") := by
    with_unfolding_all rfl
  exact ⟨_, hparse, encoded_line_iff asciiLibrary asciiLibrary_standard _ "t0" "t1" _ hparse⟩

/-! ### A long password -/

theorem splitMax_append {sep : Char} {n : Nat} {before after : List Char} (h : sep ∉ before) :
    splitMax sep (n + 1) (before ++ sep :: after) = before :: splitMax sep n after := by
  have hall : ∀ c ∈ before, decide (c ≠ sep) = true := by
    intro c hc
    refine decide_eq_true ?_
    rintro rfl
    exact h hc
  rw [splitMax, List.dropWhile_append_of_pos hall, List.takeWhile_append_of_pos hall]
  simp

theorem not_containsText {needle text : String} {c : Char} (hneedle : c ∈ needle.toList)
    (htext : c ∉ text.toList) : containsText needle text = false :=
  decide_eq_false fun hpart => htext (hpart.subset hneedle)

/-- A character of a line of the first format. -/
def InLine (L : Library) (c : Char) : Prop := Printed L c ∧ c ≠ '/' ∧ c ≠ '@'

/-- What a line of the first format gives. -/
theorem parse_colons {L : Library} {host rawPort username password : List Char} {port : Int}
    (hhost : validateProxyAccountHost L (some (String.ofList host)) = .ok (String.ofList host))
    (hport : L.toInt (String.ofList rawPort) = some port) (hrange : 1 ≤ port ∧ port ≤ 65535)
    (hcolons : ':' ∉ host ∧ ':' ∉ rawPort ∧ ':' ∉ username)
    (hchars : ∀ c ∈ host ++ (rawPort ++ username), InLine L c)
    (hpassword : ∀ c ∈ password, InLine L c) (hcolon : InLine L ':') (hnonempty : username ≠ [] ∧ password ≠ [])
    (hlength : host.length + rawPort.length ≤ 1000 ∧ username.length ≤ 300 ∧ password.length ≤ 500)
    (now : String) :
    parseAccountProxyLine L
        (String.ofList (host ++ ':' :: (rawPort ++ ':' :: (username ++ ':' :: password)))) now =
      .ok (newEntry L "socks5" (String.ofList host) port (String.ofList username)
        (String.ofList password) now) := by
  generalize hline : String.ofList (host ++ ':' :: (rawPort ++ ':' :: (username ++ ':' :: password))) =
    line
  have htoList : line.toList = host ++ ':' :: (rawPort ++ ':' :: (username ++ ':' :: password)) := by
    rw [← hline, String.toList_ofList]
  have hall : ∀ c ∈ line.toList, InLine L c := by
    intro c hc
    rw [htoList] at hc
    simp only [List.mem_append, List.mem_cons] at hc hchars
    rcases hc with hc | rfl | hc | rfl | hc | rfl | hc
    · exact hchars c (.inl hc)
    · exact hcolon
    · exact hchars c (.inr (.inl hc))
    · exact hcolon
    · exact hchars c (.inr (.inr hc))
    · exact hcolon
    · exact hpassword c hc
  have hstrip : L.strip line = line := strip_eq_self fun c hc => (hall c hc).1.1
  have hread : ¬ (line = "" ∨ 2000 < line.length ∨
      line.toList.any (fun c => "\r\n\x00".toList.contains c) = true) := by
    simp only [not_or, Bool.not_eq_true, List.any_eq_false]
    refine ⟨?_, ?_, fun c hc => ?_⟩
    · rintro rfl
      simp at htoList
    · rw [← String.length_toList, htoList]
      simp only [List.length_append, List.length_cons]
      omega
    · rw [List.contains_eq_mem, decide_eq_false (hall c hc).1.2]
  have hformat : (!containsText "://" line && !containsText "@" line) = true := by
    rw [not_containsText (c := '/') (by decide) fun hc => (hall '/' hc).2.1 rfl,
      not_containsText (c := '@') (by decide) fun hc => (hall '@' hc).2.2 rfl]
    rfl
  have husername : L.strip (String.ofList username) = String.ofList username := by
    refine strip_eq_self fun c hc => ?_
    rw [String.toList_ofList] at hc
    exact (hchars c (by simp [hc])).1.1
  have hparts : parseColons L line =
      .ok ("socks5", String.ofList host, port, String.ofList username, String.ofList password) := by
    rw [parseColons, htoList, splitMax_append hcolons.1, splitMax_append hcolons.2.1,
      splitMax_append hcolons.2.2, splitMax]
    simp only [List.map_cons, List.map_nil, hhost, hport]
    rfl
  have hempty : ∀ cs : List Char, cs ≠ [] → String.ofList cs ≠ "" := by
    intro cs hcs hnil
    have hchars := congrArg String.toList hnil
    rw [String.toList_ofList] at hchars
    exact hcs hchars
  rw [parseAccountProxyLine, hstrip, if_neg hread]
  dsimp only
  rw [if_pos hformat, hparts]
  show (if port < 1 ∨ 65535 < port then _ else _) = _
  rw [if_neg (by omega), husername, if_neg (not_or.mpr ⟨hempty _ hnonempty.1, hempty _ hnonempty.2⟩),
    String.length_ofList, String.length_ofList, if_neg (by omega)]

theorem length_quote_lt_address (entry : AccountProxy) :
    (Uri.quote entry.password.toList).length < (address entry).length := by
  simp only [address, List.length_append, List.length_cons]
  omega

theorem length_quote_replicate (n : Nat) (c : Char) :
    (Uri.quote (List.replicate n c)).length = n * (Uri.quote [c]).length := by
  have hquote : ∀ cs : List Char, (Uri.quote (c :: cs)).length =
      (Uri.quote [c]).length + (Uri.quote cs).length := by
    intro cs
    simp [Uri.quote, Uri.ascii, Uri.utf8]
  induction n with
  | zero => simp [Uri.quote, Uri.ascii, Uri.utf8]
  | succ n ih => rw [List.replicate_succ, hquote, ih, Nat.succ_mul, Nat.add_comm]

/-- 170 characters of four bytes each. -/
def widePassword : List Char := List.replicate 170 '😀'

/-- The line `proxy.example:1080:jp-user:` with that password. -/
def wideLine : String :=
  String.ofList ("proxy.example".toList ++ ':' :: ("1080".toList ++ ':' ::
    ("jp-user".toList ++ ':' :: widePassword)))

def wideEntry : AccountProxy :=
  newEntry asciiLibrary "socks5" (String.ofList "proxy.example".toList) 1080
    (String.ofList "jp-user".toList) (String.ofList widePassword) "t0"

theorem parse_wideLine : parseAccountProxyLine asciiLibrary wideLine "t0" = .ok wideEntry := by
  have hfixed : ∀ c ∈ "proxy.example".toList ++ ("1080".toList ++ "jp-user".toList),
      InLine asciiLibrary c := by
    have hall : ∀ c ∈ "proxy.example".toList ++ ("1080".toList ++ "jp-user".toList),
        isStrSpace c = false ∧ c ∉ "\r\n\x00".toList ∧ c ≠ '/' ∧ c ≠ '@' :=
      List.all_iff_forall_prop.mp (by decide)
    intro c hc
    obtain ⟨hspace, hline, hslash, hat⟩ := hall c hc
    exact ⟨⟨hspace, hline⟩, hslash, hat⟩
  have hwide : ∀ c ∈ widePassword, InLine asciiLibrary c := by
    intro c hc
    obtain rfl := List.eq_of_mem_replicate hc
    exact ⟨⟨by rfl, by decide⟩, by decide, by decide⟩
  refine parse_colons (by with_unfolding_all rfl) (by with_unfolding_all rfl) (by decide)
    (by decide) hfixed hwide ⟨⟨by rfl, by decide⟩, by decide, by decide⟩ ?_ ?_ "t0"
  · exact ⟨by decide, by decide⟩
  · refine ⟨by decide, by decide, ?_⟩
    rw [widePassword, List.length_replicate]
    decide

theorem length_quote_widePassword : (Uri.quote widePassword).length = 2040 := by
  rw [widePassword, length_quote_replicate]
  decide

theorem long_address_refused :
    ¬ ∀ (L : Library) (value now now' : String) (entry : AccountProxy), L.Standard →
      parseAccountProxyLine L value now = .ok entry →
        ∃ url, accountProxyUrl L entry = .ok url ∧
          ∃ entry', parseAccountProxyLine L url now' = .ok entry' ∧ SameProxy entry' entry := by
  intro hclaim
  have hentry := entryOk_of_parse asciiLibrary_standard parse_wideLine
  obtain ⟨url, hurl, entry', hagain, -⟩ :=
    hclaim asciiLibrary wideLine "t0" "t1" wideEntry asciiLibrary_standard parse_wideLine
  obtain rfl := Except.ok.inj ((accountProxyUrl_eq asciiLibrary_standard hentry).symm.trans hurl)
  have hpassword : (Uri.quote wideEntry.password.toList).length = 2040 := by
    have hsame : wideEntry.password = String.ofList widePassword := by
      rw [wideEntry, newEntry]
    rw [hsame, String.toList_ofList]
    exact length_quote_widePassword
  have hlong : 2000 < (asciiLibrary.strip (String.ofList (address wideEntry))).length := by
    rw [strip_address asciiLibrary_standard hentry, String.length_ofList]
    have hlonger := length_quote_lt_address wideEntry
    rw [hpassword] at hlonger
    exact Nat.lt_trans (by decide) hlonger
  rw [parse_too_long hlong] at hagain
  cases hagain

end FetchTask.AccountProxies

import Mathlib.Data.Bool.AllAny
import Mathlib.Data.List.TakeWhile

/-!
Percent-encoding, and the parts of a URI (RFC 3986).

`quote` writes the UTF-8 bytes of a text, the unreserved characters as they are
and every other byte as `%` and two digits; `unquote` reads them back. `split`
takes a text apart at the delimiters of the general syntax. A text whose parts
hold no delimiter is taken apart into just these parts.
-/

namespace FetchTask.Uri

/-! ### UTF-8 -/

def utf8 (cs : List Char) : List UInt8 := cs.flatMap String.utf8EncodeChar

def isContinuation (b : UInt8) : Bool := 0x80 ≤ b && b ≤ 0xBF

/-- Whether the byte can be the second of three or four, after the first. -/
def mayFollow (first b : UInt8) : Bool :=
  if first = 0xE0 then 0xA0 ≤ b && b ≤ 0xBF
  else if first = 0xED then 0x80 ≤ b && b ≤ 0x9F
  else if first = 0xF0 then 0x90 ≤ b && b ≤ 0xBF
  else if first = 0xF4 then 0x80 ≤ b && b ≤ 0x8F
  else 0xE1 ≤ first && first ≤ 0xF3 && isContinuation b

/-- The length of the longest beginning of a character, where no character begins. -/
def brokenLength : List UInt8 → Nat
  | first :: b :: c :: _ =>
    if mayFollow first b then (if 0xF0 ≤ first && isContinuation c then 3 else 2) else 1
  | [first, b] => if mayFollow first b then 2 else 1
  | _ => 1

/-- Decoding; what is no character becomes a replacement character. -/
def decode (bs : List UInt8) : List Char :=
  match bs with
  | [] => []
  | b :: rest =>
    match ByteArray.utf8DecodeChar? (b :: rest).toByteArray 0 with
    | some c => c :: decode (rest.drop (c.utf8Size - 1))
    | none => '\uFFFD' :: decode (rest.drop (brokenLength (b :: rest) - 1))
termination_by bs.length
decreasing_by all_goals simp only [List.length_drop, List.length_cons]; omega

theorem decode_char (c : Char) (bs : List UInt8) :
    decode (String.utf8EncodeChar c ++ bs) = c :: decode bs := by
  have hlength := String.length_utf8EncodeChar c
  have hpos := c.utf8Size_pos
  cases hcode : String.utf8EncodeChar c with
  | nil =>
    rw [hcode] at hlength
    simp only [List.length_nil] at hlength
    omega
  | cons b rest =>
    have hread : ByteArray.utf8DecodeChar? (b :: (rest ++ bs)).toByteArray 0 = some c := by
      have hfirst := @ByteArray.utf8DecodeChar?_utf8EncodeChar_append bs.toByteArray c
      rwa [hcode, ← List.toByteArray_append] at hfirst
    have hdrop : (rest ++ bs).drop (c.utf8Size - 1) = bs := by
      rw [hcode, List.length_cons] at hlength
      rw [← hlength, Nat.add_sub_cancel, List.drop_left]
    rw [List.cons_append, decode, hread]
    dsimp only
    rw [hdrop]

theorem decode_utf8 (cs : List Char) : decode (utf8 cs) = cs := by
  induction cs with
  | nil => rw [utf8, List.flatMap_nil, decode]
  | cons c cs ih =>
    rw [utf8, List.flatMap_cons, decode_char]
    exact congrArg (c :: ·) ih

/-! ### Percent-encoding -/

/-- The digits of an escape. -/
def hexDigit (n : Nat) : UInt8 := UInt8.ofNat (if n < 10 then 0x30 + n else 0x37 + n)

def hexValue (b : UInt8) : Option Nat :=
  let n := b.toNat
  if 0x30 ≤ n ∧ n ≤ 0x39 then some (n - 0x30)
  else if 0x41 ≤ n ∧ n ≤ 0x46 then some (n - 0x37)
  else if 0x61 ≤ n ∧ n ≤ 0x66 then some (n - 0x57)
  else none

/-- Letters, digits and `-._~`. -/
def unreserved (b : UInt8) : Bool :=
  let n := b.toNat
  (0x30 ≤ n && n ≤ 0x39) || (0x41 ≤ n && n ≤ 0x5A) || (0x61 ≤ n && n ≤ 0x7A) ||
    n == 0x2D || n == 0x2E || n == 0x5F || n == 0x7E

def percent : UInt8 := 0x25

def quoteByte (b : UInt8) : List UInt8 :=
  if unreserved b then [b] else [percent, hexDigit (b.toNat / 16), hexDigit (b.toNat % 16)]

/-- Escapes are read, and a `%` that begins none stays. -/
def unquoteBytes : List UInt8 → List UInt8
  | b :: x :: y :: rest =>
    if b = percent then
      match hexValue x, hexValue y with
      | some high, some low => UInt8.ofNat (16 * high + low) :: unquoteBytes rest
      | _, _ => b :: unquoteBytes (x :: y :: rest)
    else b :: unquoteBytes (x :: y :: rest)
  | bs => bs

theorem unquoteBytes_cons {b : UInt8} (h : b ≠ percent) (bs : List UInt8) :
    unquoteBytes (b :: bs) = b :: unquoteBytes bs := by
  match bs with
  | [] => simp [unquoteBytes]
  | [x] => simp [unquoteBytes]
  | x :: y :: rest => rw [unquoteBytes, if_neg h]

theorem hexValue_hexDigit {n : Nat} (h : n < 16) : hexValue (hexDigit n) = some n := by
  have hall : ∀ n : Fin 16, hexValue (hexDigit n) = some n.val := by decide
  exact hall ⟨n, h⟩

theorem unquoteBytes_quoteByte (b : UInt8) (bs : List UInt8) :
    unquoteBytes (quoteByte b ++ bs) = b :: unquoteBytes bs := by
  rw [quoteByte]
  split
  next hkeep =>
    refine unquoteBytes_cons ?_ bs
    rintro rfl
    revert hkeep
    decide
  next =>
    have hlt := b.toNat_lt
    have hhigh := hexValue_hexDigit (show b.toNat / 16 < 16 by omega)
    have hlow := hexValue_hexDigit (show b.toNat % 16 < 16 by omega)
    have hwhole : 16 * (b.toNat / 16) + b.toNat % 16 = b.toNat := Nat.div_add_mod _ _
    rw [List.cons_append, List.cons_append, List.cons_append, List.nil_append, unquoteBytes,
      if_pos rfl, hhigh, hlow]
    dsimp only
    rw [hwhole, UInt8.ofNat_toNat]

theorem unquoteBytes_flatMap (bs : List UInt8) : unquoteBytes (bs.flatMap quoteByte) = bs := by
  induction bs with
  | nil => rfl
  | cons b bs ih => rw [List.flatMap_cons, unquoteBytes_quoteByte, ih]

/-- The characters of ASCII, by their bytes. -/
def ascii (bs : List UInt8) : List Char := bs.map fun b => Char.ofNat b.toNat

def quote (cs : List Char) : List Char := ascii ((utf8 cs).flatMap quoteByte)

def unquote (cs : List Char) : List Char := decode (unquoteBytes (utf8 cs))

theorem utf8EncodeChar_ascii : ∀ n : Fin 128,
    String.utf8EncodeChar (Char.ofNat n.val) = [UInt8.ofNat n.val] := by decide

theorem utf8_ascii {bs : List UInt8} (h : ∀ b ∈ bs, b.toNat < 128) : utf8 (ascii bs) = bs := by
  induction bs with
  | nil => rfl
  | cons b bs ih =>
    have hb := h b List.mem_cons_self
    have hchar : String.utf8EncodeChar (Char.ofNat b.toNat) = [b] := by
      rw [utf8EncodeChar_ascii ⟨b.toNat, hb⟩, UInt8.ofNat_toNat]
    rw [ascii, List.map_cons, utf8, List.flatMap_cons, hchar]
    exact congrArg (b :: ·) (ih fun b' hb' => h b' (List.mem_cons_of_mem b hb'))

/-- What `quote` writes: an unreserved character, `%`, or a digit of an escape. -/
theorem mem_quoteByte {b b' : UInt8} (h : b' ∈ quoteByte b) : unreserved b' = true ∨ b' = percent := by
  rw [quoteByte] at h
  split at h
  next hkeep =>
    obtain rfl := List.mem_singleton.mp h
    exact .inl hkeep
  next =>
    have hdigit : ∀ n : Fin 16, unreserved (hexDigit n) = true := by decide
    have hlt := b.toNat_lt
    rcases List.mem_cons.mp h with rfl | h
    · exact .inr rfl
    · rcases List.mem_cons.mp h with rfl | h
      · exact .inl (hdigit ⟨b.toNat / 16, by omega⟩)
      · obtain rfl := List.mem_singleton.mp h
        exact .inl (hdigit ⟨b.toNat % 16, by omega⟩)

theorem lt_of_unreserved {b : UInt8} (h : unreserved b = true) : b.toNat < 128 := by
  simp only [unreserved, Bool.or_eq_true, Bool.and_eq_true, decide_eq_true_eq, beq_iff_eq] at h
  omega

theorem mem_quoteBytes {bs : List UInt8} {b : UInt8} (h : b ∈ bs.flatMap quoteByte) :
    unreserved b = true ∨ b = percent := by
  obtain ⟨b', -, hb⟩ := List.mem_flatMap.mp h
  exact mem_quoteByte hb

theorem unquote_quote (cs : List Char) : unquote (quote cs) = cs := by
  have hascii : ∀ b ∈ (utf8 cs).flatMap quoteByte, b.toNat < 128 := by
    intro b hb
    rcases mem_quoteBytes hb with hkeep | rfl
    · exact lt_of_unreserved hkeep
    · decide
  rw [unquote, quote, utf8_ascii hascii, unquoteBytes_flatMap, decode_utf8]

/-- An unreserved character, or `%`. -/
def isQuoted (c : Char) : Bool := c.isAlphanum || ['-', '.', '_', '~', '%'].contains c

theorem isQuoted_of_byte : ∀ n : Fin 128,
    unreserved (UInt8.ofNat n.val) = true ∨ UInt8.ofNat n.val = percent →
      isQuoted (Char.ofNat n.val) = true := by decide

/-- What a text of ASCII is made of, checked one character after the other. -/
theorem of_ascii {P : Char → Prop} (h : ∀ n : Fin 128, P (Char.ofNat n.val)) {c : Char}
    (hc : c.toNat < 128) : P c := by
  have hchar := h ⟨c.toNat, hc⟩
  dsimp only at hchar
  rwa [Char.ofNat_toNat] at hchar

theorem toNat_ascii : ∀ n : Fin 128, (Char.ofNat n.val).toNat = n.val := by decide

theorem mem_quote {cs : List Char} {c : Char} (h : c ∈ quote cs) :
    c.toNat < 128 ∧ isQuoted c = true := by
  obtain ⟨b, hb, rfl⟩ := List.mem_map.mp h
  have hkind := mem_quoteBytes hb
  have hlt : b.toNat < 128 := by
    rcases hkind with hkeep | rfl
    · exact lt_of_unreserved hkeep
    · decide
  refine ⟨(toNat_ascii ⟨b.toNat, hlt⟩).trans_lt hlt, isQuoted_of_byte ⟨b.toNat, hlt⟩ ?_⟩
  dsimp only
  rwa [UInt8.ofNat_toNat]

/-! ### Parts -/

/-- A text up to the first `sep`, and from it on. -/
def cut (sep : Char → Bool) (cs : List Char) : List Char × List Char :=
  (cs.takeWhile fun c => !sep c, cs.dropWhile fun c => !sep c)

/-- A text around its last `sep`. -/
def cutLast (sep : Char) (cs : List Char) : Option (List Char × List Char) :=
  match cs.reverse.dropWhile (· ≠ sep) with
  | [] => none
  | _ :: before => some (before.reverse, (cs.reverse.takeWhile (· ≠ sep)).reverse)

theorem cut_append {sep : Char → Bool} {before : List Char} {c : Char} {after : List Char}
    (hbefore : ∀ a ∈ before, sep a = false) (hc : sep c = true) :
    cut sep (before ++ c :: after) = (before, c :: after) := by
  have hfalse : ∀ a ∈ before, (!sep a) = true := fun a ha => by rw [hbefore a ha]; rfl
  rw [cut, List.takeWhile_append_of_pos hfalse, List.dropWhile_append_of_pos hfalse]
  simp [hc]

theorem cut_all {sep : Char → Bool} {cs : List Char} (h : ∀ a ∈ cs, sep a = false) :
    cut sep cs = (cs, []) := by
  have hfalse : ∀ a ∈ cs, (!sep a) = true := fun a ha => by rw [h a ha]; rfl
  rw [cut, List.takeWhile_eq_self_iff.mpr hfalse, List.dropWhile_eq_nil_iff.mpr hfalse]

theorem cutLast_append {sep : Char} {before after : List Char} (h : sep ∉ after) :
    cutLast sep (before ++ sep :: after) = some (before, after) := by
  have hall : ∀ a ∈ after.reverse, decide (a ≠ sep) = true := by
    intro a ha
    refine decide_eq_true fun heq => h ?_
    rw [← heq]
    exact List.mem_reverse.mp ha
  have hrev : (before ++ sep :: after).reverse = after.reverse ++ sep :: before.reverse := by simp
  rw [cutLast, hrev, List.dropWhile_append_of_pos hall, List.takeWhile_append_of_pos hall]
  simp

/-- What `split` finds: `userinfo` and `port` come without their delimiters. -/
structure Parts where
  scheme : List Char := []
  userinfo : Option (List Char) := none
  host : List Char := []
  port : Option (List Char) := none
  path : List Char := []
  query : List Char := []
  fragment : List Char := []

def isSchemeChar (c : Char) : Bool := c.isAlphanum || c == '+' || c == '-' || c == '.'

/-- A scheme begins with a letter. -/
def isScheme (cs : List Char) : Bool := (cs.head?.any Char.isAlpha) && cs.all isSchemeChar

def splitScheme (cs : List Char) : List Char × List Char :=
  match cut (· == ':') cs with
  | (scheme, _ :: rest) => if isScheme scheme then (scheme, rest) else ([], cs)
  | (_, []) => ([], cs)

def endsAuthority (c : Char) : Bool := c == '/' || c == '?' || c == '#'

def splitAuthority : List Char → List Char × List Char
  | '/' :: '/' :: rest => cut endsAuthority rest
  | rest => ([], rest)

/-- The host and the port; an address in brackets may hold colons. -/
def splitPort (cs : List Char) : List Char × Option (List Char) :=
  match cut (· == '[') cs with
  | (_, _ :: rest) =>
    let (host, rest) := cut (· == ']') rest
    match cut (· == ':') rest with
    | (_, _ :: port) => (host, some port)
    | (_, []) => (host, none)
  | (_, []) =>
    match cut (· == ':') cs with
    | (host, _ :: port) => (host, some port)
    | (host, []) => (host, none)

def split (cs : List Char) : Parts :=
  let (scheme, rest) := splitScheme cs
  let (authority, rest) := splitAuthority rest
  let (rest, fragment) := cut (· == '#') rest
  let (path, query) := cut (· == '?') rest
  let (userinfo, place) := match cutLast '@' authority with
    | some (userinfo, place) => (some userinfo, place)
    | none => (none, authority)
  let (host, port) := splitPort place
  { scheme, userinfo, host, port, path, query := query.drop 1, fragment := fragment.drop 1 }

/-- No delimiter that ends an authority or one of its parts. -/
def Plain (cs : List Char) : Prop := ∀ c ∈ cs, c ∉ ['/', '?', '#', '@', '[', ']']

theorem Plain.ne {cs : List Char} (h : Plain cs) {c d : Char} (hc : c ∈ cs)
    (hd : d ∈ ['/', '?', '#', '@', '[', ']']) : (c == d) = false := by
  refine beq_eq_false_iff_ne.mpr ?_
  rintro rfl
  exact h c hc hd

theorem Plain.append {cs cs' : List Char} (h : Plain cs) (h' : Plain cs') : Plain (cs ++ cs') := by
  intro c hc
  rcases List.mem_append.mp hc with hc | hc
  · exact h c hc
  · exact h' c hc

theorem Plain.cons {c : Char} {cs : List Char} (hc : c ∉ ['/', '?', '#', '@', '[', ']'])
    (h : Plain cs) : Plain (c :: cs) := by
  intro d hd
  rcases List.mem_cons.mp hd with rfl | hd
  · exact hc
  · exact h d hd

theorem not_endsAuthority {cs : List Char} (h : Plain cs) {c : Char} (hc : c ∈ cs) :
    endsAuthority c = false := by
  rw [endsAuthority, h.ne hc (by decide), h.ne hc (by decide), h.ne hc (by decide)]
  rfl

theorem not_mem_authority {userinfo place : List Char} (huserinfo : Plain userinfo)
    (hplace : Plain place) {d : Char} (hd : d ∈ ['[', ']']) : d ∉ userinfo ++ '@' :: place := by
  have hsub : ∀ d ∈ ['[', ']'], d ∈ ['/', '?', '#', '@', '[', ']'] ∧ d ≠ '@' :=
    List.all_iff_forall_prop.mp (by decide)
  obtain ⟨hdelimiter, hat⟩ := hsub d hd
  intro hmem
  rcases List.mem_append.mp hmem with hmem | hmem
  · exact huserinfo d hmem hdelimiter
  · rcases List.mem_cons.mp hmem with heq | hmem
    · exact hat heq
    · exact hplace d hmem hdelimiter

theorem isScheme_colon {scheme : List Char} (h : isScheme scheme = true) :
    ∀ c ∈ scheme, (c == ':') = false := by
  intro c hc
  refine beq_eq_false_iff_ne.mpr ?_
  rintro rfl
  exact absurd (List.all_eq_true.mp (Bool.and_eq_true_iff.mp h).2 ':' hc) (by decide)

/-- The authority of an address of a scheme, a user and a place. -/
theorem splitAuthority_address {scheme userinfo place : List Char}
    (hscheme : isScheme scheme = true) (huserinfo : Plain userinfo) (hplace : Plain place) :
    splitScheme (scheme ++ ':' :: '/' :: '/' :: (userinfo ++ '@' :: place)) =
        (scheme, '/' :: '/' :: (userinfo ++ '@' :: place)) ∧
      splitAuthority ('/' :: '/' :: (userinfo ++ '@' :: place)) = (userinfo ++ '@' :: place, []) := by
  have hends : ∀ c ∈ userinfo ++ '@' :: place, endsAuthority c = false := by
    intro c hc
    rcases List.mem_append.mp hc with hc | hc
    · exact not_endsAuthority huserinfo hc
    · rcases List.mem_cons.mp hc with rfl | hc
      · rfl
      · exact not_endsAuthority hplace hc
  refine ⟨?_, cut_all hends⟩
  rw [splitScheme, cut_append (isScheme_colon hscheme) (by decide)]
  exact if_pos hscheme

/-- An address of a scheme, a user and a place is taken apart into these. -/
theorem split_address {scheme userinfo host port : List Char} (hscheme : isScheme scheme = true)
    (huserinfo : Plain userinfo) (hhost : Plain host) (hcolon : ':' ∉ host) (hport : Plain port) :
    split (scheme ++ ':' :: '/' :: '/' :: (userinfo ++ '@' :: (host ++ ':' :: port))) =
      { scheme, userinfo := some userinfo, host, port := some port } := by
  have hplace : Plain (host ++ ':' :: port) := hhost.append (hport.cons (by decide))
  obtain ⟨hfirst, hauthority⟩ := splitAuthority_address hscheme huserinfo hplace
  have hat : '@' ∉ host ++ ':' :: port := fun hmem => hplace '@' hmem (by decide)
  have hbracket : ∀ c ∈ host ++ ':' :: port, (c == '[') = false :=
    fun c hc => hplace.ne hc (by decide)
  have hhostColon : ∀ c ∈ host, (c == ':') = false := by
    intro c hc
    refine beq_eq_false_iff_ne.mpr ?_
    rintro rfl
    exact hcolon hc
  have hsep : (':' == ':') = true := by decide
  simp only [split, hfirst, hauthority, splitPort, cutLast_append hat, cut_all hbracket,
    cut_append hhostColon hsep]
  simp [cut]

end FetchTask.Uri

import Messenger.Lib.Digits

/-! JSON texts as Python's `json.dumps` writes and `json.loads` reads them. Numbers are left out. A text
is read with fuel, of which its length is enough. -/

inductive Json where
  | null
  | bool (b : Bool)
  | str (s : String)
  | arr (items : List Json)
  | obj (fields : List (String × Json))

namespace Json

def isObj : Json → Bool
  | obj _ => true
  | _ => false

/-- `d.get(key)`, where the last of several equal keys counts. -/
def get? (d : Json) (key : String) : Option Json :=
  match d with
  | obj fields => (fields.reverse.find? (·.1 = key)).map (·.2)
  | _ => none

/-- `d.get(key)`, if it is a string. -/
def strAt (d : Json) (key : String) : Option String :=
  match d.get? key with
  | some (str s) => some s
  | _ => none

/-- `bool(d.get(key))`. -/
def truthyAt (d : Json) (key : String) : Bool :=
  match d.get? key with
  | none | some null | some (bool false) | some (arr []) | some (obj []) => false
  | some (str s) => s ≠ ""
  | some _ => true

/-! ### Strings -/

def shorthand : Char → Option Char
  | '"' => some '"'
  | '\\' => some '\\'
  | '\n' => some 'n'
  | '\r' => some 'r'
  | '\t' => some 't'
  | '\x0c' => some 'f'
  | '\x08' => some 'b'
  | _ => none

def unescape : Char → Option Char
  | '"' => some '"'
  | '\\' => some '\\'
  | '/' => some '/'
  | 'n' => some '\n'
  | 'r' => some '\r'
  | 't' => some '\t'
  | 'f' => some '\x0c'
  | 'b' => some '\x08'
  | _ => none

def unicodeEscape (unit : ℕ) : List Char := '\\' :: 'u' :: Digits.digits 16 4 unit

/-- With `ensure_ascii`, other characters than the printable ones of ASCII are written as the units of
UTF-16. -/
def encodeChar (c : Char) : List Char :=
  match shorthand c with
  | some e => ['\\', e]
  | none =>
    if ' ' ≤ c ∧ c ≤ '~' then [c]
    else if c.toNat < 0x10000 then unicodeEscape c.toNat
    else unicodeEscape (0xd800 + (c.toNat - 0x10000) / 0x400) ++
      unicodeEscape (0xdc00 + (c.toNat - 0x10000) % 0x400)

def quoted (s : String) : List Char := '"' :: (s.toList.flatMap encodeChar ++ ['"'])

def push (c : Char) : List Char × List Char → List Char × List Char
  | (cs, rest) => (c :: cs, rest)

/-- The characters up to the closing quote, and what follows it. A surrogate without its other half,
which is no character, is refused. -/
def scanString : List Char → Option (List Char × List Char)
  | '"' :: rest => some ([], rest)
  | '\\' :: 'u' :: a :: b :: c :: d :: rest =>
    (Digits.read 16 [a, b, c, d]).bind fun unit =>
      if 0xd800 ≤ unit ∧ unit < 0xdc00 then
        match rest with
        | '\\' :: 'u' :: e :: f :: g :: h :: rest =>
          (Digits.read 16 [e, f, g, h]).bind fun low =>
            if 0xdc00 ≤ low ∧ low < 0xe000 then
              (scanString rest).map
                (push (Char.ofNat (0x10000 + (unit - 0xd800) * 0x400 + (low - 0xdc00))))
            else none
        | _ => none
      else if 0xdc00 ≤ unit ∧ unit < 0xe000 then none
      else (scanString rest).map (push (Char.ofNat unit))
  | '\\' :: e :: rest => (unescape e).bind fun c => (scanString rest).map (push c)
  | c :: rest => if c < ' ' then none else (scanString rest).map (push c)
  | [] => none

/-! ### Values -/

mutual

def text : Json → List Char
  | null => "null".toList
  | bool true => "true".toList
  | bool false => "false".toList
  | str s => quoted s
  | arr [] => "[]".toList
  | arr (v :: vs) => '[' :: (text v ++ itemsText vs)
  | obj [] => ['\x7b', '\x7d']
  | obj ((k, v) :: kvs) => '\x7b' :: (quoted k ++ ':' :: ' ' :: (text v ++ fieldsText kvs))

def itemsText : List Json → List Char
  | [] => [']']
  | v :: vs => ',' :: ' ' :: (text v ++ itemsText vs)

def fieldsText : List (String × Json) → List Char
  | [] => ['\x7d']
  | (k, v) :: kvs => ',' :: ' ' :: (quoted k ++ ':' :: ' ' :: (text v ++ fieldsText kvs))

end

def dumps (v : Json) : String := String.ofList v.text

def skipSpace (cs : List Char) : List Char :=
  cs.dropWhile fun c => c = ' ' || c = '\n' || c = '\r' || c = '\t'

mutual

def scanValue : ℕ → List Char → Option (Json × List Char)
  | 0, _ => none
  | fuel + 1, cs =>
    match cs with
    | '"' :: cs => (scanString cs).map fun (s, rest) => (str (String.ofList s), rest)
    | '[' :: cs =>
      match skipSpace cs with
      | ']' :: rest => some (arr [], rest)
      | cs => (scanItems fuel cs).map fun (vs, rest) => (arr vs, rest)
    | '\x7b' :: cs =>
      match skipSpace cs with
      | '\x7d' :: rest => some (obj [], rest)
      | cs => (scanFields fuel cs).map fun (kvs, rest) => (obj kvs, rest)
    | 'n' :: 'u' :: 'l' :: 'l' :: rest => some (null, rest)
    | 't' :: 'r' :: 'u' :: 'e' :: rest => some (bool true, rest)
    | 'f' :: 'a' :: 'l' :: 's' :: 'e' :: rest => some (bool false, rest)
    | _ => none

def scanItems : ℕ → List Char → Option (List Json × List Char)
  | 0, _ => none
  | fuel + 1, cs =>
    (scanValue fuel cs).bind fun (v, cs) =>
      match skipSpace cs with
      | ',' :: cs => (scanItems fuel (skipSpace cs)).map fun (vs, rest) => (v :: vs, rest)
      | ']' :: rest => some ([v], rest)
      | _ => none

def scanFields : ℕ → List Char → Option (List (String × Json) × List Char)
  | 0, _ => none
  | fuel + 1, cs =>
    match cs with
    | '"' :: cs =>
      (scanString cs).bind fun (k, cs) =>
        match skipSpace cs with
        | ':' :: cs =>
          (scanValue fuel (skipSpace cs)).bind fun (v, cs) =>
            match skipSpace cs with
            | ',' :: cs => (scanFields fuel (skipSpace cs)).map fun (kvs, rest) =>
              ((String.ofList k, v) :: kvs, rest)
            | '\x7d' :: rest => some ([(String.ofList k, v)], rest)
            | _ => none
        | _ => none
    | _ => none

end

def loads (s : String) : Option Json :=
  let cs := skipSpace s.toList
  match scanValue cs.length cs with
  | some (v, rest) => if skipSpace rest = [] then some v else none
  | none => none

/-! ### A string that is written is read back -/

variable {c e : Char} {cs rest : List Char}

theorem unescape_of_shorthand (h : shorthand c = some e) : unescape e = some c ∧ e ≠ 'u' := by
  unfold shorthand at h
  split at h
  case h_8 => cases h
  all_goals
    obtain rfl := Option.some.inj h
    exact ⟨rfl, by decide⟩

theorem scanString_escape (he : e ≠ 'u') (hc : unescape e = some c) :
    scanString ('\\' :: e :: rest) = (scanString rest).map (push c) := by
  rw [scanString.eq_def]
  split
  · next heq => cases heq
  · next heq =>
    cases heq
    exact absurd rfl he
  · next heq =>
    cases heq
    rw [hc, Option.bind_some]
  · next hnot heq =>
    cases heq
    exact absurd rfl (hnot _ _ rfl)
  · next heq => cases heq

theorem scanString_plain (hquote : c ≠ '"') (hbackslash : c ≠ '\\') (hc : ¬ c < ' ') :
    scanString (c :: rest) = (scanString rest).map (push c) := by
  rw [scanString.eq_def]
  split
  · next heq =>
    cases heq
    exact absurd rfl hquote
  · next heq =>
    cases heq
    exact absurd rfl hbackslash
  · next heq =>
    cases heq
    exact absurd rfl hbackslash
  · next heq =>
    cases heq
    rw [if_neg hc]
  · next heq => cases heq

theorem unicodeEscape_eq (unit : ℕ) :
    ∃ a b c d, unicodeEscape unit = ['\\', 'u', a, b, c, d] ∧
      Digits.read 16 [a, b, c, d] = some (unit % 0x10000) := by
  have hread : Digits.read 16 (Digits.digits 16 4 unit) = some (unit % 16 ^ 4) :=
    Digits.read_digits (by decide) (by decide)
  exact ⟨_, _, _, _, rfl, hread⟩

/-- A unit that is no surrogate stands for itself. -/
theorem scanString_unit {unit : ℕ} (hlow : unit < 0x10000) (hunit : unit < 0xd800 ∨ 0xe000 ≤ unit) :
    scanString (unicodeEscape unit ++ rest) = (scanString rest).map (push (Char.ofNat unit)) := by
  obtain ⟨a, b, c, d, htext, hread⟩ := unicodeEscape_eq unit
  rw [Nat.mod_eq_of_lt hlow] at hread
  have hhigh : ¬ (0xd800 ≤ unit ∧ unit < 0xdc00) := by omega
  have hother : ¬ (0xdc00 ≤ unit ∧ unit < 0xe000) := by omega
  rw [htext]
  show scanString ('\\' :: 'u' :: a :: b :: c :: d :: rest) = _
  rw [scanString, hread, Option.bind_some, if_neg hhigh, if_neg hother]

/-- Two surrogates stand for a character of the other planes. -/
theorem scanString_pair {high low : ℕ} (hhigh : high < 0x400) (hlow : low < 0x400) :
    scanString (unicodeEscape (0xd800 + high) ++ (unicodeEscape (0xdc00 + low) ++ rest)) =
      (scanString rest).map (push (Char.ofNat (0x10000 + high * 0x400 + low))) := by
  obtain ⟨a, b, c, d, htext, hread⟩ := unicodeEscape_eq (0xd800 + high)
  obtain ⟨a', b', c', d', htext', hread'⟩ := unicodeEscape_eq (0xdc00 + low)
  rw [Nat.mod_eq_of_lt (by omega)] at hread hread'
  rw [htext, htext']
  show scanString ('\\' :: 'u' :: a :: b :: c :: d :: '\\' :: 'u' :: a' :: b' :: c' :: d' :: rest) = _
  rw [scanString, hread, Option.bind_some, if_pos (by omega)]
  show (Digits.read 16 [a', b', c', d']).bind _ = _
  rw [hread', Option.bind_some, if_pos (by omega), Nat.add_sub_cancel_left, Nat.add_sub_cancel_left]

theorem scanString_encodeChar :
    scanString (encodeChar c ++ rest) = (scanString rest).map (push c) := by
  unfold encodeChar
  cases hshort : shorthand c with
  | some e =>
    obtain ⟨hunescape, hne⟩ := unescape_of_shorthand hshort
    exact scanString_escape hne hunescape
  | none =>
    have hnat : Char.ofNat c.toNat = c := Char.ofNat_toNat c
    have hvalid : c.toNat < 0xd800 ∨ 0xdfff < c.toNat ∧ c.toNat < 0x110000 := c.valid
    dsimp only
    split
    · next hprintable =>
      have hquote : c ≠ '"' := by
        rintro rfl
        cases hshort
      have hbackslash : c ≠ '\\' := by
        rintro rfl
        cases hshort
      exact scanString_plain hquote hbackslash (Char.not_lt.mpr hprintable.1)
    · split
      · next hplane =>
        rw [scanString_unit hplane (by omega), hnat]
      · next hplane =>
        have hcombine : 0x10000 + (c.toNat - 0x10000) / 0x400 * 0x400 + (c.toNat - 0x10000) % 0x400 =
            c.toNat := by omega
        rw [List.append_assoc, scanString_pair (by omega) (by omega), hcombine, hnat]

theorem scanString_flatMap : scanString (cs.flatMap encodeChar ++ '"' :: rest) = some (cs, rest) := by
  induction cs with
  | nil => rfl
  | cons c cs ih =>
    rw [List.flatMap_cons, List.append_assoc, scanString_encodeChar, ih]
    rfl

/-! ### A value that is written is read back -/

/-- What a value begins with: no space, and nothing that would end an array. -/
theorem text_head (v : Json) :
    ∃ c cs, v.text = c :: cs ∧ c ≠ ' ' ∧ c ≠ '\n' ∧ c ≠ '\r' ∧ c ≠ '\t' ∧ c ≠ ']' := by
  match v with
  | null | bool true | bool false | str _ | arr [] | arr (_ :: _) | obj [] | obj ((_, _) :: _) =>
    exact ⟨_, _, rfl, by decide, by decide, by decide, by decide, by decide⟩

theorem skipSpace_cons (hspace : c ≠ ' ') (hnewline : c ≠ '\n') (hreturn : c ≠ '\r') (htab : c ≠ '\t') :
    skipSpace (c :: cs) = c :: cs := by
  unfold skipSpace
  rw [List.dropWhile_cons_of_neg]
  simp [hspace, hnewline, hreturn, htab]

theorem skipSpace_text (v : Json) : skipSpace (v.text ++ rest) = v.text ++ rest := by
  obtain ⟨c, cs, htext, hspace, hnewline, hreturn, htab, -⟩ := text_head v
  rw [htext]
  exact skipSpace_cons hspace hnewline hreturn htab

variable {n : ℕ} {v w : Json} {vs ws : List Json} {k l : String} {kvs lws : List (String × Json)}

theorem quoted_append (k : String) :
    quoted k ++ cs = '"' :: (k.toList.flatMap encodeChar ++ '"' :: cs) := by
  simp only [quoted, List.cons_append, List.append_assoc, List.nil_append]

theorem scanValue_str : scanValue (n + 1) (quoted k ++ rest) = some (str k, rest) := by
  rw [quoted_append]
  simp only [scanValue, scanString_flatMap, Option.map_some, String.ofList_toList]

theorem scanValue_arr (h : scanItems n (v.text ++ (itemsText vs ++ rest)) = some (ws, rest)) :
    scanValue (n + 1) ('[' :: (v.text ++ (itemsText vs ++ rest))) = some (arr ws, rest) := by
  obtain ⟨c, cs, htext, -, -, -, -, hbracket⟩ := text_head v
  have hskip : skipSpace (v.text ++ (itemsText vs ++ rest)) = v.text ++ (itemsText vs ++ rest) :=
    skipSpace_text v
  simp only [scanValue, hskip]
  rw [htext] at h ⊢
  split
  · next heq =>
    cases heq
    exact absurd rfl hbracket
  · rw [h]
    rfl

theorem scanValue_obj (h : scanFields n (quoted k ++ cs) = some (kvs, rest)) :
    scanValue (n + 1) ('\x7b' :: (quoted k ++ cs)) = some (obj kvs, rest) := by
  rw [quoted_append] at h ⊢
  have hskip : skipSpace ('"' :: (k.toList.flatMap encodeChar ++ '"' :: cs)) =
      '"' :: (k.toList.flatMap encodeChar ++ '"' :: cs) := rfl
  simp only [scanValue, hskip]
  show (scanFields n _).map _ = _
  rw [h]
  rfl

theorem scanItems_last (h : scanValue n (v.text ++ ']' :: rest) = some (v, ']' :: rest)) :
    scanItems (n + 1) (v.text ++ ']' :: rest) = some ([v], rest) := by
  have hskip : skipSpace (']' :: rest) = ']' :: rest := rfl
  simp only [scanItems, h, Option.bind_some, hskip]

theorem scanItems_cons (h : scanValue n (v.text ++ ',' :: ' ' :: (w.text ++ cs)) =
      some (v, ',' :: ' ' :: (w.text ++ cs)))
    (hnext : scanItems n (w.text ++ cs) = some (ws, rest)) :
    scanItems (n + 1) (v.text ++ ',' :: ' ' :: (w.text ++ cs)) = some (v :: ws, rest) := by
  have hcomma : skipSpace (',' :: ' ' :: (w.text ++ cs)) = ',' :: ' ' :: (w.text ++ cs) := rfl
  have hspace : skipSpace (' ' :: (w.text ++ cs)) = w.text ++ cs := skipSpace_text w
  simp only [scanItems, h, Option.bind_some, hcomma, hspace, hnext, Option.map_some]

theorem scanFields_last (h : scanValue n (v.text ++ '\x7d' :: rest) = some (v, '\x7d' :: rest)) :
    scanFields (n + 1) (quoted k ++ ':' :: ' ' :: (v.text ++ '\x7d' :: rest)) =
      some ([(k, v)], rest) := by
  rw [quoted_append]
  have hcolon : skipSpace (':' :: ' ' :: (v.text ++ '\x7d' :: rest)) =
      ':' :: ' ' :: (v.text ++ '\x7d' :: rest) := rfl
  have hspace : skipSpace (' ' :: (v.text ++ '\x7d' :: rest)) = v.text ++ '\x7d' :: rest :=
    skipSpace_text v
  have hbrace : skipSpace ('\x7d' :: rest) = '\x7d' :: rest := rfl
  simp only [scanFields, scanString_flatMap, Option.bind_some, hcolon, hspace, h, hbrace,
    String.ofList_toList]

theorem scanFields_cons (h : scanValue n (v.text ++ ',' :: ' ' :: (quoted l ++ cs)) =
      some (v, ',' :: ' ' :: (quoted l ++ cs)))
    (hnext : scanFields n (quoted l ++ cs) = some (lws, rest)) :
    scanFields (n + 1) (quoted k ++ ':' :: ' ' :: (v.text ++ ',' :: ' ' :: (quoted l ++ cs))) =
      some ((k, v) :: lws, rest) := by
  rw [quoted_append k]
  have hcolon : skipSpace (':' :: ' ' :: (v.text ++ ',' :: ' ' :: (quoted l ++ cs))) =
      ':' :: ' ' :: (v.text ++ ',' :: ' ' :: (quoted l ++ cs)) := rfl
  have hspace : skipSpace (' ' :: (v.text ++ ',' :: ' ' :: (quoted l ++ cs))) =
      v.text ++ ',' :: ' ' :: (quoted l ++ cs) := skipSpace_text v
  have hcomma : skipSpace (',' :: ' ' :: (quoted l ++ cs)) = ',' :: ' ' :: (quoted l ++ cs) := rfl
  have hquote : skipSpace (' ' :: (quoted l ++ cs)) = quoted l ++ cs := rfl
  simp only [scanFields, scanString_flatMap, Option.bind_some, hcolon, hspace, h, hcomma, hquote,
    hnext, Option.map_some, String.ofList_toList]

theorem length_text_pos (v : Json) : 0 < v.text.length := by
  obtain ⟨c, cs, htext, -⟩ := text_head v
  rw [htext]
  exact Nat.succ_pos _

mutual

/-- The length of the text is fuel enough. -/
theorem scanValue_text : ∀ (v : Json) (fuel : ℕ) (rest : List Char), v.text.length ≤ fuel →
    scanValue fuel (v.text ++ rest) = some (v, rest)
  | v, 0, rest, hfuel => absurd hfuel (not_le.mpr (length_text_pos v))
  | null, _ + 1, _, _ => rfl
  | bool true, _ + 1, _, _ => rfl
  | bool false, _ + 1, _, _ => rfl
  | str _, _ + 1, _, _ => scanValue_str
  | arr [], _ + 1, _, _ => rfl
  | arr (v :: vs), fuel + 1, rest, hfuel => by
    have hitems := scanItems_text v vs fuel rest (by simpa [text] using hfuel)
    have hscan := scanValue_arr hitems
    simpa only [text, List.cons_append, List.append_assoc] using hscan
  | obj [], _ + 1, _, _ => rfl
  | obj ((k, v) :: kvs), fuel + 1, rest, hfuel => by
    have hlength : (quoted k).length + v.text.length + (fieldsText kvs).length ≤ fuel := by
      simp only [text, List.length_cons, List.length_append] at hfuel
      omega
    have hscan := scanValue_obj (scanFields_text k v kvs fuel rest hlength)
    simpa only [text, List.cons_append, List.append_assoc] using hscan

theorem scanItems_text : ∀ (v : Json) (vs : List Json) (fuel : ℕ) (rest : List Char),
    v.text.length + (itemsText vs).length ≤ fuel →
    scanItems fuel (v.text ++ (itemsText vs ++ rest)) = some (v :: vs, rest)
  | v, vs, 0, _, hfuel => by
    have hpos := length_text_pos v
    omega
  | v, [], fuel + 1, rest, hfuel => by
    have hlength : v.text.length ≤ fuel := by
      simp only [itemsText, List.length_singleton] at hfuel
      omega
    exact scanItems_last (scanValue_text v fuel _ hlength)
  | v, w :: vs, fuel + 1, rest, hfuel => by
    have hlength : v.text.length ≤ fuel ∧ w.text.length + (itemsText vs).length ≤ fuel := by
      simp only [itemsText, List.length_cons, List.length_append] at hfuel
      omega
    have hscan := scanItems_cons (scanValue_text v fuel _ hlength.1)
      (scanItems_text w vs fuel rest hlength.2)
    simpa only [itemsText, List.cons_append, List.append_assoc] using hscan

theorem scanFields_text : ∀ (k : String) (v : Json) (kvs : List (String × Json)) (fuel : ℕ)
    (rest : List Char), (quoted k).length + v.text.length + (fieldsText kvs).length ≤ fuel →
    scanFields fuel (quoted k ++ ':' :: ' ' :: (v.text ++ (fieldsText kvs ++ rest))) =
      some ((k, v) :: kvs, rest)
  | k, v, kvs, 0, _, hfuel => by
    have hpos := length_text_pos v
    omega
  | k, v, [], fuel + 1, rest, hfuel => by
    have hlength : v.text.length ≤ fuel := by
      simp only [fieldsText, List.length_singleton] at hfuel
      omega
    exact scanFields_last (scanValue_text v fuel _ hlength)
  | k, v, (l, w) :: kvs, fuel + 1, rest, hfuel => by
    have hlength : v.text.length ≤ fuel ∧
        (quoted l).length + w.text.length + (fieldsText kvs).length ≤ fuel := by
      simp only [fieldsText, List.length_cons, List.length_append] at hfuel
      omega
    have hscan := scanFields_cons (k := k) (scanValue_text v fuel _ hlength.1)
      (scanFields_text l w kvs fuel rest hlength.2)
    simpa only [fieldsText, List.cons_append, List.append_assoc] using hscan

end

/-- `json.loads(json.dumps(v))` is `v`. -/
@[simp] theorem loads_dumps (v : Json) : loads (dumps v) = some v := by
  have hskip : skipSpace v.text = v.text := by
    have h : skipSpace (v.text ++ []) = v.text ++ [] := skipSpace_text v
    rwa [List.append_nil] at h
  have hscan : scanValue v.text.length v.text = some (v, []) := by
    have h := scanValue_text v v.text.length [] le_rfl
    rwa [List.append_nil] at h
  unfold loads dumps
  rw [String.toList_ofList, hskip]
  simp only [hscan]
  rfl

end Json

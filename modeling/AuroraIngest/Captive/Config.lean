import AuroraIngest.Go.Std

/-!
# The configuration the runner writes for hcnet-core

`hcnetCoreRunner.generateConfig` writes the configuration file line by line: the network
passphrase and the bucket directory as quoted strings, a `[HISTORY.h<i>]` table with a quoted
`get` command per history archive, and a fixed quorum set. It then doubles every backslash of
the whole text, and does nothing else to the values it embeds.

Read back with TOML's rules for basic strings, a value comes back exactly when it holds no
`"` and no control character other than tab: doubling the backslashes makes every backslash
read as itself, and nothing else needs escaping. A `"` in a value ends the string early, so
a passphrase `x"#` reads back as `x`, the rest of the line being a comment; a newline breaks
the line.

The decoder below reads the part of TOML the generated text uses: comments, table headers of
bare keys, and `key = value` lines whose value is a basic string, a boolean, a decimal
integer or an array of basic strings on one line. A key given twice in a table, or a table
header given twice, is an error, as in TOML.
-/

namespace AuroraIngest.Captive.Config

open AuroraIngest.Go

/-- The lines `generateConfig`'s loop appends: a table per history archive URL, numbered
from `i`. -/
def historyLines (i : Nat) : List String → List String
  | [] => []
  | val :: vals =>
    s!"[HISTORY.h{i}]" :: ("get=\"curl -sf " ++ val ++ "/{0} -o {1}\"") :: historyLines (i + 1) vals

def generateConfig (networkPassphrase tempDir : String) (historyURLs : List String) : String :=
  let lines :=
    ["# Generated file -- do not edit",
      "RUN_STANDALONE=true",
      "NODE_IS_VALIDATOR=false",
      "DISABLE_XDR_FSYNC=true",
      "UNSAFE_QUORUM=true",
      "NETWORK_PASSPHRASE=\"" ++ networkPassphrase ++ "\"",
      "BUCKET_DIR_PATH=\"" ++ filepathJoin [tempDir, "buckets"] ++ "\""] ++
    historyLines 0 historyURLs ++
    ["[QUORUM_SET]",
      "THRESHOLD_PERCENT=100",
      "VALIDATORS=[\"GCZBOIAY4HLKAJVNJORXZOZRAY2BJDBZHKPBHZCRAIUR5IHC2UHBGCQR\"]"]
  replaceAllChar (stringsJoin lines "\n") '\\' "\\\\"

/-- TOML's whitespace. -/
def isWs (c : Char) : Bool := c = ' ' || c = '\t'

/-- The characters of a bare key: letters, digits, `_` and `-`. -/
def isBareKeyChar (c : Char) : Bool := c.isAlphanum || c = '_' || c = '-'

/-- A character a basic string holds as it is: tab, and every character from space on
except `"`, `\` and DEL. -/
def isBasicUnescaped (c : Char) : Bool :=
  c = '\t' || (0x20 ≤ c.toNat && c ≠ '"' && c ≠ '\\' && c.toNat ≠ 0x7f)

/-- A character a comment may hold: tab, and every character from space on except DEL. -/
def isCommentChar (c : Char) : Bool := c = '\t' || (0x20 ≤ c.toNat && c.toNat ≠ 0x7f)

/-- The one-character escapes of a basic string. -/
def escapeChar : Char → Option Char
  | 'b' => some '\x08'
  | 't' => some '\t'
  | 'n' => some '\n'
  | 'f' => some '\x0c'
  | 'r' => some '\r'
  | '"' => some '"'
  | '\\' => some '\\'
  | _ => none

/-- The value of a hexadecimal digit. -/
def hexDigit (c : Char) : Option Nat :=
  if c.isDigit then some (c.toNat - '0'.toNat)
  else if 'a' ≤ c && c ≤ 'f' then some (c.toNat - 'a'.toNat + 10)
  else if 'A' ≤ c && c ≤ 'F' then some (c.toNat - 'A'.toNat + 10)
  else none

/-- Where the reader of a basic string stands: in plain text, after a backslash, or inside
a `\uXXXX` or `\UXXXXXXXX` escape with `digits` digits to go. -/
inductive BodyMode where
  | plain
  | escape
  | hex (digits value : Nat)

/-- The body of a basic string after its opening `"`, one character at a time, after the
characters `acc` (reversed): its value and what follows the closing `"`. The digits of a
`\u` or `\U` escape must name a Unicode scalar value. -/
def basicBody : BodyMode → List Char → List Char → Option (String × List Char)
  | _, _, [] => none
  | .plain, acc, c :: rest =>
    if c = '"' then some (⟨acc.reverse⟩, rest)
    else if c = '\\' then basicBody .escape acc rest
    else if isBasicUnescaped c then basicBody .plain (c :: acc) rest
    else none
  | .escape, acc, c :: rest =>
    if c = 'u' then basicBody (.hex 4 0) acc rest
    else if c = 'U' then basicBody (.hex 8 0) acc rest
    else
      match escapeChar c with
      | some d => basicBody .plain (d :: acc) rest
      | none => none
  | .hex digits value, acc, c :: rest =>
    match hexDigit c with
    | none => none
    | some d =>
      if digits ≤ 1 then
        if (value * 16 + d).isValidChar then basicBody .plain (Char.ofNat (value * 16 + d) :: acc) rest
        else none
      else basicBody (.hex (digits - 1) (value * 16 + d)) acc rest

/-- A TOML value of the kinds the generated text uses. -/
inductive Value where
  | str (s : String)
  | bool (b : Bool)
  | int (n : Nat)
  | array (items : List String)
  deriving DecidableEq, Repr

/-- The items of a one-line array of basic strings, after its `[`; `fuel` bounds the
number of items. -/
def arrayItems : Nat → List Char → List String → Option (Value × List Char)
  | 0, _, _ => none
  | fuel + 1, cs, items =>
    match cs.dropWhile isWs with
    | c :: rest =>
      if c = ']' then some (.array items.reverse, rest)
      else if c = '"' then
        match basicBody .plain [] rest with
        | none => none
        | some (s, rest) =>
          match rest.dropWhile isWs with
          | d :: rest =>
            if d = ',' then arrayItems fuel rest (s :: items)
            else if d = ']' then some (.array (s :: items).reverse, rest)
            else none
          | [] => none
      else none
    | [] => none

/-- A value and what follows it. An integer is decimal, without sign, underscores or
leading zeros. -/
def parseValue : List Char → Option (Value × List Char)
  | [] => none
  | c :: rest =>
    if c = '"' then (basicBody .plain [] rest).map fun (s, r) ↦ (.str s, r)
    else if c = '[' then arrayItems (rest.length + 1) rest []
    else if (c :: rest).take 4 = ['t', 'r', 'u', 'e'] then some (.bool true, rest.drop 3)
    else if (c :: rest).take 5 = ['f', 'a', 'l', 's', 'e'] then some (.bool false, rest.drop 4)
    else
      let (ds, r) := (c :: rest).span Char.isDigit
      if ds = [] ∨ (c = '0' ∧ ds.length > 1) then none else some (.int (digitsValue 0 ds), r)

/-- What may follow a value or a header on its line: whitespace, then a comment or nothing. -/
def lineEnd (cs : List Char) : Bool :=
  match cs.dropWhile isWs with
  | [] => true
  | c :: comment => c = '#' && comment.all isCommentChar

/-- The characters without whitespace at either end. -/
def trimWs (cs : List Char) : List Char := ((cs.dropWhile isWs).reverse.dropWhile isWs).reverse

/-- The bare keys of a table header, separated by dots. -/
def tableName (name : List Char) : Option (List String) :=
  (name.splitOn '.').mapM fun part ↦
    if trimWs part ≠ [] ∧ (trimWs part).all isBareKeyChar then some ⟨trimWs part⟩ else none

/-- A line: blank or a comment, a table header, or a key with its value. -/
inductive Line where
  | blank
  | header (table : List String)
  | pair (key : String) (value : Value)
  deriving DecidableEq, Repr

def decodeLine (line : List Char) : Option Line :=
  match line.dropWhile isWs with
  | [] => some .blank
  | c :: rest =>
    if c = '#' then if rest.all isCommentChar then some .blank else none
    else if c = '[' then
      match rest.span (· != ']') with
      | (name, _ :: tail) => if lineEnd tail then (tableName name).map .header else none
      | (_, []) => none
    else
      let (key, r) := (c :: rest).span isBareKeyChar
      if key = [] then none
      else
        match r.dropWhile isWs with
        | d :: r =>
          if d = '=' then
            match parseValue (r.dropWhile isWs) with
            | some (v, r) => if lineEnd r then some (.pair ⟨key⟩ v) else none
            | none => none
          else none
        | [] => none

/-- A key of a table, with its value. -/
structure Entry where
  table : List String
  key : String
  value : Value
  deriving DecidableEq, Repr

/-- The lines from the table `table` on: the headers met and the entries, in order. -/
def decodeLines : List String → List (List Char) → Option (List (List String) × List Entry)
  | _, [] => some ([], [])
  | table, l :: ls =>
    match decodeLine l with
    | none => none
    | some .blank => decodeLines table ls
    | some (.header t) => (decodeLines t ls).map fun p ↦ (t :: p.1, p.2)
    | some (.pair k v) => (decodeLines table ls).map fun p ↦ (p.1, ⟨table, k, v⟩ :: p.2)

/-- A document: its lines, with no header and no key of a table given twice. -/
def decodeToml (text : String) : Option (List Entry) :=
  match decodeLines [] (text.data.splitOn '\n') with
  | some (tables, entries) =>
    if tables.Nodup ∧ (entries.map fun e ↦ (e.table, e.key)).Nodup then some entries else none
  | none => none

/-- The history tables of `intendedConfig`, numbered from `i`. -/
def historyEntries (i : Nat) : List String → List Entry
  | [] => []
  | val :: vals =>
    ⟨["HISTORY", s!"h{i}"], "get", .str ("curl -sf " ++ val ++ "/{0} -o {1}")⟩ ::
      historyEntries (i + 1) vals

/-- Modelled from the spec: the configuration `generateConfig` is meant to write, with the
passphrase, the bucket directory and each archive's `get` command as given. -/
def intendedConfig (networkPassphrase bucketDirPath : String) (historyURLs : List String) :
    List Entry :=
  [⟨[], "RUN_STANDALONE", .bool true⟩, ⟨[], "NODE_IS_VALIDATOR", .bool false⟩,
    ⟨[], "DISABLE_XDR_FSYNC", .bool true⟩, ⟨[], "UNSAFE_QUORUM", .bool true⟩,
    ⟨[], "NETWORK_PASSPHRASE", .str networkPassphrase⟩,
    ⟨[], "BUCKET_DIR_PATH", .str bucketDirPath⟩] ++
  historyEntries 0 historyURLs ++
  [⟨["QUORUM_SET"], "THRESHOLD_PERCENT", .int 100⟩,
    ⟨["QUORUM_SET"], "VALIDATORS", .array ["GCZBOIAY4HLKAJVNJORXZOZRAY2BJDBZHKPBHZCRAIUR5IHC2UHBGCQR"]⟩]

/-- A character that reads back as itself once backslashes are doubled: one a basic string
holds as it is, or a backslash. -/
def embeddable (c : Char) : Bool := isBasicUnescaped c || c = '\\'

/-- The doubling of `generateConfig`'s `ReplaceAll`, character by character. -/
def escapeBackslash (c : Char) : List Char := if c = '\\' then "\\\\".data else [c]

/-- A line of the text once `ReplaceAll` has doubled its backslashes. -/
def escapedLine (l : String) : List Char := l.data.flatMap escapeBackslash

theorem basicBody_quote (acc rest : List Char) :
    basicBody .plain acc ('"' :: rest) = some (⟨acc.reverse⟩, rest) := rfl

theorem basicBody_backslash (acc rest : List Char) :
    basicBody .plain acc ('\\' :: '\\' :: rest) = basicBody .plain ('\\' :: acc) rest := rfl

theorem basicBody_unescaped {c : Char} (hc : isBasicUnescaped c = true) (acc rest : List Char) :
    basicBody .plain acc (c :: rest) = basicBody .plain (c :: acc) rest := by
  have hq : c ≠ '"' := by rintro rfl; exact absurd hc (by decide)
  have hb : c ≠ '\\' := by rintro rfl; exact absurd hc (by decide)
  rw [basicBody, if_neg hq, if_neg hb, if_pos hc]

/-- A value whose characters all read back as themselves is read back from its escaped text,
up to the closing `"`. -/
theorem basicBody_escape : ∀ (xs acc rest : List Char), xs.all embeddable = true →
    basicBody .plain acc (xs.flatMap escapeBackslash ++ '"' :: rest) =
      some (⟨acc.reverse ++ xs⟩, rest)
  | [], acc, rest, _ => by simpa using basicBody_quote acc rest
  | x :: xs, acc, rest, h => by
    simp only [List.all_cons, Bool.and_eq_true] at h
    have ih := basicBody_escape xs (x :: acc) rest h.2
    rw [List.reverse_cons, List.append_assoc, List.singleton_append] at ih
    rw [List.flatMap_cons, List.append_assoc]
    by_cases hx : x = '\\'
    · subst hx
      exact (basicBody_backslash _ _).trans ih
    · have hu : isBasicUnescaped x = true := by simpa [embeddable, hx] using h.1
      simp only [escapeBackslash, hx, if_false, List.singleton_append]
      exact (basicBody_unescaped hu _ _).trans ih

theorem isWs_of_isBareKeyChar {c : Char} (h : isBareKeyChar c = true) : isWs c = false := by
  cases hc : isWs c
  · rfl
  · simp only [isWs, Bool.or_eq_true, decide_eq_true_eq] at hc
    rcases hc with rfl | rfl <;> exact absurd h (by decide)

/-- The span of a key's characters stops at the first character that is not one. -/
theorem span_key (c : Char) (rest : List Char) {key : List Char}
    (hkey : key.all isBareKeyChar = true) (hc : isBareKeyChar c = false) :
    (key ++ c :: rest).span isBareKeyChar = (key, c :: rest) := by
  have hall : ∀ a ∈ key, isBareKeyChar a = true := List.all_eq_true.mp hkey
  rw [List.span_eq_take_drop, List.takeWhile_append_of_pos hall, List.dropWhile_append_of_pos hall,
    List.takeWhile_cons_of_neg (by simp [hc]), List.dropWhile_cons_of_neg (by simp [hc]),
    List.append_nil]

/-- A `key="…"` line with an escaped value reads back as the key and the value. -/
theorem decodeLine_string {key : List Char} (hkey : key ≠ []) (hbare : key.all isBareKeyChar = true)
    {xs : List Char} (hxs : xs.all embeddable = true) :
    decodeLine (key ++ '=' :: '"' :: (xs.flatMap escapeBackslash ++ ['"'])) =
      some (.pair ⟨key⟩ (.str ⟨xs⟩)) := by
  obtain ⟨k, ks, rfl⟩ := List.exists_cons_of_ne_nil hkey
  have hk : isBareKeyChar k = true := (List.all_eq_true.mp hbare) k (List.mem_cons_self _ _)
  have hh : k ≠ '#' := by rintro rfl; exact absurd hk (by decide)
  have hb : k ≠ '[' := by rintro rfl; exact absurd hk (by decide)
  have hspan := span_key '=' ('"' :: (xs.flatMap escapeBackslash ++ ['"'])) hbare (by decide)
  rw [List.cons_append] at hspan
  unfold decodeLine
  rw [List.cons_append, List.dropWhile_cons_of_neg (by simp [isWs_of_isBareKeyChar hk])]
  simp only [if_neg hh, if_neg hb, hspan, List.cons_ne_nil, if_false]
  simp [isWs, parseValue, basicBody_escape xs [] [] hxs, lineEnd]

theorem dropWhile_of_all_false {p : Char → Bool} :
    ∀ {cs : List Char}, (∀ c ∈ cs, p c = false) → cs.dropWhile p = cs
  | [], _ => rfl
  | c :: _, h => List.dropWhile_cons_of_neg (by simp [h c (List.mem_cons_self _ _)])

theorem trimWs_of_all {cs : List Char} (h : ∀ c ∈ cs, isWs c = false) : trimWs cs = cs := by
  unfold trimWs
  rw [dropWhile_of_all_false h, dropWhile_of_all_false (fun c hc ↦ h c (List.mem_reverse.mp hc)),
    List.reverse_reverse]

theorem isBareKeyChar_of_isDigit {c : Char} (h : c.isDigit = true) : isBareKeyChar c = true := by
  simp [isBareKeyChar, Char.isAlphanum, h]

/-- The header of the `i`-th history table reads back as the table `HISTORY.h<i>`. -/
theorem decodeLine_history (i : Nat) :
    decodeLine (s!"[HISTORY.h{i}]").data = some (.header ["HISTORY", s!"h{i}"]) := by
  have hd : ∀ c ∈ (toString i).data, c.isDigit = true := formatUint_isDigit i
  have hname : "HISTORY.h".data ++ (toString i).data = ['.'].intercalate ["HISTORY".data, 'h' :: (toString i).data] := by
    simp [List.intercalate]
  have hparts : ∀ l ∈ ["HISTORY".data, 'h' :: (toString i).data], '.' ∉ l := by
    intro l hl
    simp only [List.mem_cons, List.mem_singleton, List.not_mem_nil, or_false] at hl
    rcases hl with rfl | rfl
    · decide
    · intro hm
      rcases List.mem_cons.mp hm with h | h
      · exact absurd h (by decide)
      · exact absurd (hd '.' h) (by decide)
  have hh : ∀ c ∈ 'h' :: (toString i).data, isBareKeyChar c = true := by
    intro c hc
    rcases List.mem_cons.mp hc with rfl | hc
    exacts [rfl, isBareKeyChar_of_isDigit (hd c hc)]
  have htrim : trimWs ('h' :: (toString i).data) = 'h' :: (toString i).data :=
    trimWs_of_all fun c hc ↦ isWs_of_isBareKeyChar (hh c hc)
  have hspan : ("HISTORY.h".data ++ (toString i).data ++ [']']).span (· != ']') =
      ("HISTORY.h".data ++ (toString i).data, [']']) := by
    have hall : ∀ a ∈ "HISTORY.h".data ++ (toString i).data, (a != ']') = true := by
      intro a ha
      rcases List.mem_append.mp ha with ha | ha
      · exact (by decide : ∀ a ∈ "HISTORY.h".data, (a != ']') = true) a ha
      · have hne : a ≠ ']' := by rintro rfl; exact absurd (hd _ ha) (by decide)
        simpa using hne
    rw [List.span_eq_take_drop, List.takeWhile_append_of_pos hall, List.dropWhile_append_of_pos hall]
    simp
  have hpart₁ : (if trimWs "HISTORY".data ≠ [] ∧ (trimWs "HISTORY".data).all isBareKeyChar = true
      then some (⟨trimWs "HISTORY".data⟩ : String) else none) = some "HISTORY" := by decide
  have hpart₂ : (if trimWs ('h' :: (toString i).data) ≠ [] ∧
      (trimWs ('h' :: (toString i).data)).all isBareKeyChar = true
      then some (⟨trimWs ('h' :: (toString i).data)⟩ : String) else none) = some s!"h{i}" := by
    rw [htrim, if_pos ⟨List.cons_ne_nil _ _, List.all_eq_true.mpr hh⟩]
    simp only [Option.some.injEq]
    exact String.ext (by
      show 'h' :: (toString i).data = ['h'] ++ ((toString i).data ++ [])
      simp)
  have htable : tableName ("HISTORY.h".data ++ (toString i).data) = some ["HISTORY", s!"h{i}"] := by
    unfold tableName
    rw [hname, List.splitOn_intercalate _ '.' hparts (List.cons_ne_nil _ _)]
    simp only [List.mapM_cons, List.mapM_nil, hpart₁, hpart₂]
    rfl
  show decodeLine ('[' :: ("HISTORY.h".data ++ (toString i).data ++ [']'])) = _
  unfold decodeLine
  simp only [List.dropWhile_cons_of_neg (by decide : ¬ (isWs '[' = true)), hspan, if_neg
    (by decide : ('[' : Char) ≠ '#'), if_true]
  show (if lineEnd [] then (tableName ("HISTORY.h".data ++ (toString i).data)).map Line.header
    else none) = _
  rw [htable]
  rfl

theorem flatMap_escape_of_ne : ∀ {cs : List Char}, (∀ c ∈ cs, c ≠ '\\') →
    cs.flatMap escapeBackslash = cs
  | [], _ => rfl
  | c :: cs, h => by
    rw [List.flatMap_cons, flatMap_escape_of_ne fun c' hc' ↦ h c' (List.mem_cons_of_mem _ hc')]
    simp [escapeBackslash, h c (List.mem_cons_self _ _)]

/-- A `key="…"` line of the generated text reads back as the key and the value. -/
theorem decodeLine_quoted (key : String) (hkey : key.data ≠ [])
    (hbare : key.data.all isBareKeyChar = true) {value : String}
    (hv : value.data.all embeddable = true) :
    decodeLine ((key.data ++ ['=', '"'] ++ value.data ++ ['"']).flatMap escapeBackslash) =
      some (.pair key (.str value)) := by
  have hk : key.data.flatMap escapeBackslash = key.data := flatMap_escape_of_ne fun c hc ↦ by
    rintro rfl; exact absurd ((List.all_eq_true.mp hbare) _ hc) (by decide)
  have hline : (key.data ++ ['=', '"'] ++ value.data ++ ['"']).flatMap escapeBackslash =
      key.data ++ '=' :: '"' :: (value.data.flatMap escapeBackslash ++ ['"']) := by
    simp [List.flatMap_append, hk, escapeBackslash]
  rw [hline, decodeLine_string hkey hbare hv]

theorem intercalate_newline_cons_cons (a b : List Char) (rest : List (List Char)) :
    ['\n'].intercalate (a :: b :: rest) = a ++ ['\n'] ++ ['\n'].intercalate (b :: rest) := by
  simp [List.intercalate, List.intersperse_cons_cons, List.append_assoc]

/-- Doubling the backslashes of joined lines doubles those of each line. -/
theorem flatMap_escape_intercalate : ∀ ls : List (List Char),
    (['\n'].intercalate ls).flatMap escapeBackslash =
      ['\n'].intercalate (ls.map (·.flatMap escapeBackslash))
  | [] => rfl
  | [l] => by simp [List.intercalate, List.intersperse_singleton]
  | l :: l' :: ls => by
    rw [intercalate_newline_cons_cons, List.flatMap_append, List.flatMap_append,
      flatMap_escape_intercalate (l' :: ls)]
    simp only [List.map_cons]
    rw [intercalate_newline_cons_cons]
    simp [escapeBackslash]

/-- `generateConfig`'s text: its lines, each with its backslashes doubled, one per line. -/
theorem replaceAll_join_data (lines : List String) :
    (replaceAllChar (stringsJoin lines "\n") '\\' "\\\\").data =
      ['\n'].intercalate (lines.map escapedLine) := by
  show (['\n'].intercalate (lines.map String.data)).flatMap escapeBackslash = _
  rw [flatMap_escape_intercalate, List.map_map]
  rfl

/-! ## The generated configuration -/

theorem decodeLines_cons_blank {l : List Char} (h : decodeLine l = some .blank)
    (table : List String) (ls : List (List Char)) :
    decodeLines table (l :: ls) = decodeLines table ls := by
  rw [decodeLines, h]

theorem decodeLines_cons_header {l : List Char} {t : List String} (h : decodeLine l = some (.header t))
    (table : List String) (ls : List (List Char)) :
    decodeLines table (l :: ls) = (decodeLines t ls).map fun p ↦ (t :: p.1, p.2) := by
  rw [decodeLines, h]

theorem decodeLines_cons_pair {l : List Char} {k : String} {v : Value}
    (h : decodeLine l = some (.pair k v)) (table : List String) (ls : List (List Char)) :
    decodeLines table (l :: ls) = (decodeLines table ls).map fun p ↦ (p.1, ⟨table, k, v⟩ :: p.2) := by
  rw [decodeLines, h]

theorem embeddable_ne_newline {c : Char} (h : embeddable c = true) : c ≠ '\n' := by
  rintro rfl; exact absurd h (by decide)

theorem newline_not_mem_escapedLine {l : String} (h : '\n' ∉ l.data) : '\n' ∉ escapedLine l := by
  intro hm
  obtain ⟨c, hc, hm⟩ := List.mem_flatMap.mp hm
  unfold escapeBackslash at hm
  split at hm
  · exact absurd hm (by decide)
  · exact h (List.mem_singleton.mp hm ▸ hc)

theorem historyHeader_escapedLine (i : Nat) :
    escapedLine s!"[HISTORY.h{i}]" = (s!"[HISTORY.h{i}]").data := by
  refine flatMap_escape_of_ne fun c hc ↦ ?_
  have hd := formatUint_isDigit i
  simp only [String.data_append, List.mem_append] at hc
  rcases hc with (hc | hc) | hc
  · exact (by decide : ∀ c ∈ "[HISTORY.h".data, c ≠ '\\') c hc
  · rintro rfl; exact absurd (hd _ hc) (by decide)
  · exact (by decide : ∀ c ∈ "]".data, c ≠ '\\') c hc

theorem embeddable_of_isDigit {c : Char} (h : c.isDigit = true) : embeddable c = true := by
  simp only [Char.isDigit, Bool.and_eq_true, decide_eq_true_eq] at h
  have h1 : 48 ≤ c.toNat := h.1
  have h2 : c.toNat ≤ 57 := h.2
  have hq : c ≠ '"' := by rintro rfl; exact absurd h1 (by decide)
  have hb : c ≠ '\\' := by rintro rfl; exact absurd h2 (by decide)
  simp [embeddable, isBasicUnescaped, hq, hb]
  omega

theorem historyHeader_embeddable (i : Nat) : (s!"[HISTORY.h{i}]").data.all embeddable = true := by
  simp only [String.data_append, List.all_append, Bool.and_eq_true]
  exact ⟨⟨by decide, List.all_eq_true.mpr fun c hc ↦ embeddable_of_isDigit (formatUint_isDigit i c hc)⟩,
    by decide⟩

theorem historyGet_embeddable {val : String} (h : val.data.all embeddable = true) :
    ("curl -sf " ++ val ++ "/{0} -o {1}").data.all embeddable = true := by
  simp only [String.data_append, List.all_append, h, Bool.and_true, Bool.true_and]
  decide

theorem historyGet_data (val : String) :
    ("get=\"curl -sf " ++ val ++ "/{0} -o {1}\"").data =
      "get".data ++ ['=', '"'] ++ ("curl -sf " ++ val ++ "/{0} -o {1}").data ++ ['"'] := by
  simp [String.data_append]

/-- The history tables read back one by one, whatever table precedes them, when the lines
after them read back the same from every table. -/
theorem decodeLines_history {rest : List (List Char)} {R : List (List String) × List Entry}
    (hrest : ∀ table, decodeLines table rest = some R) :
    ∀ (i : Nat) (vals : List String) (table : List String),
      (∀ v ∈ vals, v.data.all embeddable = true) →
      decodeLines table ((historyLines i vals).map escapedLine ++ rest) =
        some ((historyEntries i vals).map Entry.table ++ R.1, historyEntries i vals ++ R.2)
  | _, [], table, _ => by simp [historyLines, historyEntries, hrest]
  | i, v :: vs, table, h => by
    have hv := h v (List.mem_cons_self _ _)
    have hget : decodeLine (escapedLine ("get=\"curl -sf " ++ v ++ "/{0} -o {1}\"")) =
        some (.pair "get" (.str ("curl -sf " ++ v ++ "/{0} -o {1}"))) := by
      rw [escapedLine, historyGet_data]
      exact decodeLine_quoted "get" (by decide) (by decide) (historyGet_embeddable hv)
    simp only [historyLines, List.map_cons, List.cons_append]
    rw [decodeLines_cons_header (by rw [historyHeader_escapedLine]; exact decodeLine_history i),
      decodeLines_cons_pair hget,
      decodeLines_history hrest (i + 1) vs _ fun v hv ↦ h v (List.mem_cons_of_mem _ hv)]
    rfl

theorem newline_not_mem_of_embeddable {v : String} (h : v.data.all embeddable = true) :
    '\n' ∉ v.data := fun hm ↦ embeddable_ne_newline (List.all_eq_true.mp h _ hm) rfl

theorem newline_not_mem_append {pre v post : String} (hpre : '\n' ∉ pre.data)
    (hv : v.data.all embeddable = true) (hpost : '\n' ∉ post.data) : '\n' ∉ (pre ++ v ++ post).data := by
  simp only [String.data_append, List.mem_append, not_or]
  exact ⟨⟨hpre, newline_not_mem_of_embeddable hv⟩, hpost⟩

theorem historyLines_newline : ∀ (i : Nat) (vals : List String),
    (∀ v ∈ vals, v.data.all embeddable = true) → ∀ l ∈ historyLines i vals, '\n' ∉ l.data
  | _, [], _ => nofun
  | i, v :: vs, h => by
    intro l hl
    simp only [historyLines, List.mem_cons] at hl
    rcases hl with rfl | rfl | hl
    · exact newline_not_mem_of_embeddable (historyHeader_embeddable i)
    · exact newline_not_mem_append (by decide) (h v (List.mem_cons_self _ _)) (by decide)
    · exact historyLines_newline (i + 1) vs (fun v hv ↦ h v (List.mem_cons_of_mem _ hv)) l hl

theorem historyEntries_tables : ∀ (i : Nat) (vals : List String),
    (historyEntries i vals).map Entry.table =
      (List.range' i vals.length).map fun k ↦ ["HISTORY", s!"h{k}"]
  | _, [] => rfl
  | i, _ :: vs => by
    simp only [historyEntries, List.map_cons, List.length_cons, List.range'_succ,
      historyEntries_tables (i + 1) vs]

theorem historyTable_injective : Function.Injective fun k : Nat ↦ ["HISTORY", s!"h{k}"] := by
  intro a b hab
  have h := congrArg String.data (List.cons.inj (List.cons.inj hab).2).1
  simp only [String.data_append] at h
  exact formatUint_injective (String.ext (List.append_cancel_left (List.append_cancel_right h)))

theorem historyTables_nodup (i : Nat) (vals : List String) :
    ((historyEntries i vals).map Entry.table).Nodup := by
  rw [historyEntries_tables]
  exact (List.nodup_range' _ _).map historyTable_injective

theorem historyKeys_nodup (i : Nat) (vals : List String) :
    ((historyEntries i vals).map fun e ↦ (e.table, e.key)).Nodup :=
  List.Nodup.of_map Prod.fst (by rw [List.map_map]; exact historyTables_nodup i vals)

theorem table_of_mem_historyEntries {i : Nat} {vals : List String} {e : Entry}
    (h : e ∈ historyEntries i vals) : e.table.head? = some "HISTORY" := by
  have he := List.mem_map_of_mem Entry.table h
  rw [historyEntries_tables] at he
  obtain ⟨k, -, hk⟩ := List.mem_map.mp he
  rw [← hk]
  rfl

theorem historyKey_head {i : Nat} {vals : List String} {a : List String × String}
    (h : a ∈ (historyEntries i vals).map fun e ↦ (e.table, e.key)) : a.1.head? = some "HISTORY" := by
  obtain ⟨e, he, rfl⟩ := List.mem_map.mp h
  exact table_of_mem_historyEntries he

/-- No table header of the intended configuration is given twice. -/
theorem intendedConfig_tables_nodup (historyURLs : List String) :
    ((historyEntries 0 historyURLs).map Entry.table ++ [["QUORUM_SET"]]).Nodup := by
  refine List.nodup_append.mpr ⟨historyTables_nodup 0 _, List.nodup_singleton _, ?_⟩
  intro a ha hq
  obtain ⟨e, he, rfl⟩ := List.mem_map.mp ha
  have hhead := table_of_mem_historyEntries he
  rw [List.mem_singleton.mp hq] at hhead
  exact absurd hhead (by decide)

/-- No key of a table of the intended configuration is given twice. -/
theorem intendedConfig_keys_nodup (networkPassphrase bucketDirPath : String)
    (historyURLs : List String) :
    ((intendedConfig networkPassphrase bucketDirPath historyURLs).map
      fun e ↦ (e.table, e.key)).Nodup := by
  simp only [intendedConfig, List.map_append, List.map_cons, List.map_nil]
  refine List.nodup_append.mpr ⟨List.nodup_append.mpr ⟨by decide, historyKeys_nodup 0 _, ?_⟩,
    by decide, ?_⟩
  · intro a hroot hhist
    have hhead := historyKey_head hhist
    simp only [List.mem_cons, List.not_mem_nil, or_false] at hroot
    rcases hroot with rfl | rfl | rfl | rfl | rfl | rfl <;> exact absurd hhead (by decide)
  · intro a ha hq
    simp only [List.mem_cons, List.not_mem_nil, or_false] at hq
    rcases List.mem_append.mp ha with hroot | hhist
    · simp only [List.mem_cons, List.not_mem_nil, or_false] at hroot
      rcases hq with rfl | rfl <;> rcases hroot with h | h | h | h | h | h <;> exact absurd h (by decide)
    · have hhead := historyKey_head hhist
      rcases hq with rfl | rfl <;> exact absurd hhead (by decide)

/-- The quorum set's lines read back the same from every table. -/
theorem decodeLines_quorum (table : List String) :
    decodeLines table
      [escapedLine "[QUORUM_SET]", escapedLine "THRESHOLD_PERCENT=100",
        escapedLine "VALIDATORS=[\"GCZBOIAY4HLKAJVNJORXZOZRAY2BJDBZHKPBHZCRAIUR5IHC2UHBGCQR\"]"] =
      some ([["QUORUM_SET"]], [⟨["QUORUM_SET"], "THRESHOLD_PERCENT", .int 100⟩,
        ⟨["QUORUM_SET"], "VALIDATORS", .array ["GCZBOIAY4HLKAJVNJORXZOZRAY2BJDBZHKPBHZCRAIUR5IHC2UHBGCQR"]⟩]) :=
  rfl

theorem generateConfig_decodes {networkPassphrase tempDir : String} {historyURLs : List String}
    (hp : networkPassphrase.data.all embeddable = true)
    (hb : (filepathJoin [tempDir, "buckets"]).data.all embeddable = true)
    (hu : ∀ url ∈ historyURLs, url.data.all embeddable = true) :
    decodeToml (generateConfig networkPassphrase tempDir historyURLs) =
      some (intendedConfig networkPassphrase (filepathJoin [tempDir, "buckets"]) historyURLs) := by
  have hpass : decodeLine (escapedLine ("NETWORK_PASSPHRASE=\"" ++ networkPassphrase ++ "\"")) =
      some (.pair "NETWORK_PASSPHRASE" (.str networkPassphrase)) :=
    decodeLine_quoted "NETWORK_PASSPHRASE" (by decide) (by decide) hp
  have hbucket : decodeLine (escapedLine ("BUCKET_DIR_PATH=\"" ++ filepathJoin [tempDir, "buckets"] ++ "\"")) =
      some (.pair "BUCKET_DIR_PATH" (.str (filepathJoin [tempDir, "buckets"]))) :=
    decodeLine_quoted "BUCKET_DIR_PATH" (by decide) (by decide) hb
  have h₁ : decodeLine (escapedLine "# Generated file -- do not edit") = some .blank := rfl
  have h₂ : decodeLine (escapedLine "RUN_STANDALONE=true") =
    some (.pair "RUN_STANDALONE" (.bool true)) := rfl
  have h₃ : decodeLine (escapedLine "NODE_IS_VALIDATOR=false") =
    some (.pair "NODE_IS_VALIDATOR" (.bool false)) := rfl
  have h₄ : decodeLine (escapedLine "DISABLE_XDR_FSYNC=true") =
    some (.pair "DISABLE_XDR_FSYNC" (.bool true)) := rfl
  have h₅ : decodeLine (escapedLine "UNSAFE_QUORUM=true") = some (.pair "UNSAFE_QUORUM" (.bool true)) := rfl
  rw [decodeToml, generateConfig]
  rw [replaceAll_join_data, List.splitOn_intercalate _ _ ?nl (by simp)]
  case nl =>
    simp only [List.forall_mem_map]
    intro l hl
    refine newline_not_mem_escapedLine ?_
    simp only [List.mem_append, List.mem_cons, List.not_mem_nil, or_false] at hl
    rcases hl with ((rfl | rfl | rfl | rfl | rfl | rfl | rfl) | hl) | (rfl | rfl | rfl)
    any_goals decide
    · exact newline_not_mem_append (by decide) hp (by decide)
    · exact newline_not_mem_append (by decide) hb (by decide)
    · exact historyLines_newline 0 _ hu l hl
  simp only [List.map_append, List.map_cons, List.map_nil, List.cons_append, List.nil_append,
    List.append_assoc]
  rw [decodeLines_cons_blank h₁, decodeLines_cons_pair h₂, decodeLines_cons_pair h₃,
    decodeLines_cons_pair h₄, decodeLines_cons_pair h₅, decodeLines_cons_pair hpass,
    decodeLines_cons_pair hbucket, decodeLines_history decodeLines_quorum 0 historyURLs [] hu]
  simp only [Option.map_some']
  exact if_pos ⟨intendedConfig_tables_nodup historyURLs,
    intendedConfig_keys_nodup networkPassphrase (filepathJoin [tempDir, "buckets"]) historyURLs⟩

/-- `generateConfig`'s text reads back as the intended configuration whenever the passphrase,
the bucket directory and the archive URLs hold no `"` and no control character but tab,
backslashes included; a `"` or a newline in a value is not escaped. The passphrase `x"#`
reads back as `x`, with no error, and a URL that ends in a newline makes the text unreadable. -/
theorem generateConfig_escaping_round_trip :
    (∀ (networkPassphrase tempDir : String) (historyURLs : List String),
      networkPassphrase.data.all embeddable = true →
      (filepathJoin [tempDir, "buckets"]).data.all embeddable = true →
      (∀ url ∈ historyURLs, url.data.all embeddable = true) →
      decodeToml (generateConfig networkPassphrase tempDir historyURLs) =
        some (intendedConfig networkPassphrase (filepathJoin [tempDir, "buckets"]) historyURLs)) ∧
    decodeToml (generateConfig "x\"#" "/tmp" []) = some (intendedConfig "x" "/tmp/buckets" []) ∧
    decodeToml (generateConfig "x" "/tmp" ["http://a\n"]) = none :=
  ⟨fun _ _ _ hp hb hu ↦ generateConfig_decodes hp hb hu, rfl, rfl⟩

example : decodeLine "VALIDATORS=[\"A\", \"B\",] # two".data =
    some (.pair "VALIDATORS" (.array ["A", "B"])) := by decide

example : decodeLine " [ HISTORY . h10 ]".data = some (.header ["HISTORY", "h10"]) := by decide

example : decodeLine "get=\"a\\\\b\\u00e9\"".data = some (.pair "get" (.str "a\\bé")) := by decide

end AuroraIngest.Captive.Config

import KpiReport.Sql.Dialect

/-!
# Quoted identifiers are read back

An identifier may be any text: the alias of an output column is made of mapping texts, with whatever
quotes, backticks and backslashes these hold. This module has the other side of quoting, the rule by
which each dialect reads a quoted identifier at the start of a text, and shows that the two belong
together.

* **`readDoubled`, `readEscaped`** — the two rules. Where a quote stands for itself if it is doubled,
  the end of an identifier shows only by what follows it; where a backslash makes the next character
  literal, the end shows by itself.
* **`flatMap_quoteChar_clickhouse`** — escaping character by character is to replace first the
  backslashes and then the backticks.
* **`readName_quoted`** — what is written between the quotes is read as the identifier, up to the
  closing quote and not further.
* **`readIdent_quoteIdent`** — so a quoted identifier is read back from the whole of its text, and no
  identifier reaches into the text that follows it.
-/

namespace KpiReport.Sql.Dialect

/-! ## Reading -/

/-- Puts a character in front of a name that was read. -/
def consName (c : Char) (r : List Char × List Char) : List Char × List Char :=
  (c :: r.1, r.2)

/-- The name up to the closing double quote, and what is left. Two double quotes in a row stand for
one that is part of the name. -/
def readDoubled : List Char → Option (List Char × List Char)
  | [] => none
  | '"' :: '"' :: cs => (readDoubled cs).map (consName '"')
  | '"' :: cs => some ([], cs)
  | c :: cs => (readDoubled cs).map (consName c)

/-- The name up to the closing backtick, and what is left. The character after a backslash is part
of the name, whatever it is. -/
def readEscaped : List Char → Option (List Char × List Char)
  | [] => none
  | '\x60' :: cs => some ([], cs)
  | '\\' :: [] => none
  | '\\' :: c :: cs => (readEscaped cs).map (consName c)
  | c :: cs => (readEscaped cs).map (consName c)

/-- Reads on after the opening quote. -/
def readName : Dialect → List Char → Option (List Char × List Char)
  | postgres => readDoubled
  | clickhouse => readEscaped

/-- Reads a quoted identifier at the start of a text, and gives back what is left of the text. -/
def readIdent (d : Dialect) (text : String) : Option (String × String) :=
  match text.toList with
  | [] => none
  | c :: cs =>
    if c = d.quoteMark then
      (d.readName cs).map fun r => (String.ofList r.1, String.ofList r.2)
    else none

/-- The text does not go on with a quote that would be taken for part of the identifier in front of
it. In a dialect that does not double its quotes no text does. -/
def Apart : Dialect → List Char → Prop
  | postgres, cs => cs.head? ≠ some '"'
  | clickhouse, _ => True

instance (d : Dialect) (cs : List Char) : Decidable (d.Apart cs) := by
  cases d <;> unfold Apart <;> infer_instance

/-! ## Two replacements -/

/-- A text with a character replaced wherever it occurs. -/
def replaceChar (c : Char) (new cs : List Char) : List Char :=
  cs.flatMap fun x => if x = c then new else [x]

/-- Where quotes are escaped, writing a name comes to two replacements, of the backslashes and then
of the quotes. The backslashes that the second one writes are not replaced any more. -/
theorem flatMap_quoteChar_clickhouse (name : List Char) :
    name.flatMap (quoteChar clickhouse) =
      replaceChar '\x60' ['\\', '\x60'] (replaceChar '\\' ['\\', '\\'] name) := by
  rw [replaceChar, replaceChar, List.flatMap_assoc]
  congr 1
  funext c
  rw [quoteChar]
  -- two characters are escaped, the others are left alone by both replacements
  by_cases hslash : c = '\\'
  · subst hslash
    rfl
  · by_cases htick : c = '\x60'
    · subst htick
      rfl
    · simp [hslash, htick]

/-- The other way round the name would end at its first backtick. -/
example : readEscaped (replaceChar '\\' ['\\', '\\'] (replaceChar '\x60' ['\\', '\x60'] ['\x60'])
    ++ ['\x60']) = some (['\\'], ['\x60']) := by decide

/-! ## One character -/

theorem readDoubled_of_ne {c : Char} (h : c ≠ '"') (cs : List Char) :
    readDoubled (c :: cs) = (readDoubled cs).map (consName c) := by
  rw [readDoubled]
  all_goals simp [h]

theorem readEscaped_of_ne {c : Char} (hslash : c ≠ '\\') (htick : c ≠ '\x60') (cs : List Char) :
    readEscaped (c :: cs) = (readEscaped cs).map (consName c) := by
  rw [readEscaped]
  all_goals simp [hslash, htick]

/-- The closing quote ends the name where the text after it stays apart. Where quotes are escaped
this is always so. -/
theorem readName_quoteMark {d : Dialect} {rest : List Char} (h : d.Apart rest) :
    d.readName (d.quoteMark :: rest) = some ([], rest) := by
  cases d with
  | clickhouse =>
    show readEscaped ('\x60' :: rest) = some ([], rest)
    rw [readEscaped]
  | postgres =>
    show readDoubled ('"' :: rest) = some ([], rest)
    cases rest with
    | nil => rfl
    | cons c cs =>
      -- a second double quote would make this one part of the name
      have hc : c ≠ '"' := fun hc => h (by rw [hc, List.head?_cons])
      rw [readDoubled]
      simpa using hc

/-- Every character is read back from the way it is written, whatever stands behind it. This is the
step of the induction on the name. -/
theorem readName_quoteChar (d : Dialect) (c : Char) (cs : List Char) :
    d.readName (d.quoteChar c ++ cs) = (d.readName cs).map (consName c) := by
  cases d with
  | postgres =>
    show readDoubled (quoteChar postgres c ++ cs) = (readDoubled cs).map (consName c)
    rw [quoteChar]
    split
    · next hquote =>
      subst hquote
      -- a double quote is written twice and read once
      show readDoubled ('"' :: '"' :: cs) = _
      rw [readDoubled]
    · next hplain => exact readDoubled_of_ne hplain cs
  | clickhouse =>
    show readEscaped (quoteChar clickhouse c ++ cs) = (readEscaped cs).map (consName c)
    rw [quoteChar]
    split
    · -- a backslash or a backtick, with the escaping backslash before it
      show readEscaped ('\\' :: c :: cs) = _
      rw [readEscaped]
    · next hplain =>
      rw [not_or] at hplain
      exact readEscaped_of_ne hplain.1 hplain.2 cs

/-! ## Whole identifiers -/

/-- A name is read from its characters as they are written, and the closing quote is the first one
that is taken for it. -/
theorem readName_quoted {d : Dialect} {rest : List Char} (h : d.Apart rest) (name : List Char) :
    d.readName (name.flatMap d.quoteChar ++ d.quoteMark :: rest) = some (name, rest) := by
  induction name with
  | nil => exact readName_quoteMark h
  | cons c name ih =>
    rw [List.flatMap_cons, List.append_assoc, readName_quoteChar, ih]
    rfl

/-- A quoted identifier is read back from the start of a text that goes on behind it, and the rest
of the text is left as it is. -/
theorem readIdent_append {d : Dialect} {rest : String} (h : d.Apart rest.toList) (name : String) :
    d.readIdent (d.quoteIdent name ++ rest) = some (name, rest) := by
  -- the quotes on both sides, with the characters of the name between them
  have htext : (d.quoteIdent name ++ rest).toList =
      d.quoteMark :: (name.toList.flatMap d.quoteChar ++ d.quoteMark :: rest.toList) := by
    rw [String.toList_append, toList_quoteIdent]
    simp
  rw [readIdent, htext]
  simp only [if_true, readName_quoted h, Option.map_some, String.ofList_toList]

theorem apart_nil (d : Dialect) : d.Apart [] := by
  cases d <;> simp [Apart]

/-- **Quoted identifiers cannot be broken out of.** Reading a quoted identifier takes all of its text
and gives the identifier. With more text behind it, reading stops at the same place; so of two texts
that start with a quoted identifier and are equal, the identifiers are the same and so is what
follows. The text that follows must not start with a double quote where quotes are doubled. -/
theorem readIdent_quoteIdent (d : Dialect) :
    (∀ name, d.readIdent (d.quoteIdent name) = some (name, "")) ∧
    (∀ name rest, d.Apart rest.toList →
      d.readIdent (d.quoteIdent name ++ rest) = some (name, rest)) ∧
    ∀ a b s t, d.Apart s.toList → d.Apart t.toList →
      d.quoteIdent a ++ s = d.quoteIdent b ++ t → a = b ∧ s = t := by
  refine ⟨fun name => ?_, fun name rest h => readIdent_append h name, ?_⟩
  · have hread : d.readIdent (d.quoteIdent name ++ "") = some (name, "") :=
      readIdent_append (apart_nil d) name
    rwa [String.append_empty] at hread
  · intro a b s t hs ht heq
    -- both texts are one text, and that is read in one way
    have hread : some (a, s) = some (b, t) := by
      rw [← readIdent_append hs a, ← readIdent_append ht b, heq]
    exact Prod.mk.inj (Option.some.inj hread)

/-- Names that end in what looks like the end of a name, and text that looks like more of one. -/
theorem readIdent_quoteIdent_ends :
    (postgres.Apart " FROM t".toList ∧
      postgres.readIdent (postgres.quoteIdent "a\"\"" ++ " FROM t") = some ("a\"\"", " FROM t")) ∧
    (clickhouse.Apart "\x60 b".toList ∧
      clickhouse.quoteIdent "a\\" ++ "\x60 b" = "\x60a\\\\\x60" ++ "\x60 b" ∧
      clickhouse.quoteIdent "a\\" = "\x60a\\\\\x60" ∧
      ("a\\" = "a\\" ∧ "\x60 b" = "\x60 b")) := by
  obtain ⟨-, hpostgres, -⟩ := readIdent_quoteIdent postgres
  obtain ⟨-, -, hclickhouse⟩ := readIdent_quoteIdent clickhouse
  exact ⟨⟨by decide, hpostgres _ _ (by decide)⟩, by decide, by decide, by decide,
    hclickhouse _ _ _ _ (by decide) (by decide) rfl⟩

/-- A double quote right behind an identifier is read as part of it. -/
example : postgres.quoteIdent "a" ++ "\"b\"" = postgres.quoteIdent "a\"b" ++ "" := by decide

end KpiReport.Sql.Dialect

import Mathlib.Algebra.Group.Nat.Defs
import Mathlib.Data.List.Basic

/-! The placeholders of a data-source statement: a body writes `?`, Postgres reads `$1`, `$2`, ... The rewriting
follows one flag; what it should leave alone is told by the lexical structure of the text. -/
namespace Durare.Placeholders

def dollar (n : Nat) : List Char := '$' :: Nat.toDigits 10 n

/-- The loop of `to_pg_placeholders` with its counter, a `u32`, and its flag. -/
def rewriteFrom : Nat → Bool → List Char → List Char
  | _, _, [] => []
  | n, inStr, c :: rest =>
    if c = '\'' then c :: rewriteFrom n (!inStr) rest
    else if c = '?' ∧ inStr = false then dollar ((n + 1) % 2 ^ 32) ++ rewriteFrom ((n + 1) % 2 ^ 32) inStr rest
    else c :: rewriteFrom n inStr rest

def toPgPlaceholders (sql : String) : String := String.ofList (rewriteFrom 0 false sql.toList)

/-- Where a character of a statement stands. Block comments nest, and a dollar-quoted text ends at its own tag.
In the code, whether the character before belongs to a name. Behind an escape string, whether a newline has come: if
so the next quote goes on with it, and a line comment in between does not matter. -/
inductive Region where
  | code (named : Bool)
  | ended (newline : Bool)
  | literal
  | escape
  | identifier
  | line (behind : Bool)
  | block (depth : Nat)
  | dollars (tag : List Char)
deriving DecidableEq, Repr

/-- A literal, a quoted identifier or a comment. -/
def Region.quoted : Region → Bool
  | .code _ | .ended _ => false
  | _ => true

def startsName (c : Char) : Bool := c.isAlpha || c == '_' || 128 ≤ c.toNat

def inTag (c : Char) : Bool := startsName c || c.isDigit

/-- The tag of a dollar quote, from behind its first dollar. -/
def dollarTag (rest : List Char) : Option (List Char) :=
  let tag := rest.takeWhile inTag
  if (rest.drop tag.length).head? = some '$' ∧ tag.head?.all startsName = true then some tag else none

/-- What begins at a character of the code, and how many characters more belong to its mark. -/
def Region.opened (named : Bool) (c : Char) (rest : List Char) : Region × Nat :=
  if c = '\'' then (.literal, 0)
  else if c = '"' then (.identifier, 0)
  else if (c = 'E' ∨ c = 'e') ∧ named = false ∧ rest.head? = some '\'' then (.escape, 1)
  else if c = '-' ∧ rest.head? = some '-' then (.line false, 1)
  else if c = '/' ∧ rest.head? = some '*' then (.block 1, 1)
  else if c = '$' ∧ named = false then
    match dollarTag rest with
    | some tag => (.dollars tag, tag.length + 1)
    | none => (.code false, 0)
  else (.code (startsName c || named && (c.isDigit || c == '$')), 0)

/-- The closing quote, unless it is doubled. -/
def Region.closed (quote : Char) (here behind : Region) (c : Char) (rest : List Char) : Region × Nat :=
  if c = quote then (if rest.head? = some quote then (here, 1) else (behind, 0)) else (here, 0)

def isNewline (c : Char) : Bool := c == '\n' || c == '\r'

def isSpace (c : Char) : Bool := c == ' ' || c == '\t' || c == '\x0b' || c == '\x0c'

/-- Behind an escape string. -/
def Region.continued (newline : Bool) (c : Char) (rest : List Char) : Region × Nat :=
  if isNewline c = true then (.ended true, 0)
  else if isSpace c = true then (.ended newline, 0)
  else if c = '-' ∧ rest.head? = some '-' then (.line true, 1)
  else if c = '\'' ∧ newline = true then (.escape, 0)
  else opened false c rest

/-- Where the text goes on behind a character, and how many characters more are taken with it. -/
def Region.next (c : Char) (rest : List Char) : Region → Region × Nat
  | .code named => opened named c rest
  | .ended newline => continued newline c rest
  | .literal => closed '\'' .literal (.code false) c rest
  | .escape => if c = '\\' then (.escape, 1) else closed '\'' .escape (.ended false) c rest
  | .identifier => closed '"' .identifier (.code false) c rest
  | .line behind =>
    if isNewline c = true then (if behind then .ended true else .code false, 0) else (.line behind, 0)
  | .block depth =>
    if c = '*' ∧ rest.head? = some '/' then (if depth ≤ 1 then .code false else .block (depth - 1), 1)
    else if c = '/' ∧ rest.head? = some '*' then (.block (depth + 1), 1)
    else (.block depth, 0)
  | .dollars tag =>
    if c = '$' ∧ (tag ++ ['$']).isPrefixOf rest = true then (.code false, tag.length + 1) else (.dollars tag, 0)

/-- The characters of a text, each with whether it stands in a quoted region. -/
def scan : Region → Nat → List Char → List (Char × Bool)
  | _, _, [] => []
  | region, taken + 1, c :: rest => (c, region.quoted) :: scan region taken rest
  | region, 0, c :: rest => (c, region.quoted) :: scan (region.next c rest).1 (region.next c rest).2 rest

def marked (sql : String) : List (Char × Bool) := scan (.code false) 0 sql.toList

/-- The text with `mark i` in the place of its `i`-th bind question mark. -/
def filled (mark : Nat → List Char) : Nat → List (Char × Bool) → List Char
  | _, [] => []
  | n, (c, quoted) :: rest =>
    if c = '?' ∧ quoted = false then mark (n + 1) ++ filled mark (n + 1) rest else c :: filled mark n rest

/-- Only the bind question marks are replaced, the `i`-th by `$i`: where the text itself has its question marks
(`filled_original`). -/
def Faithful (sql : String) : Prop := toPgPlaceholders sql = String.ofList (filled dollar 0 (marked sql))

def binds (chars : List (Char × Bool)) : Nat := chars.count ('?', false)

/-- The flag at a character: it turns at every single quote. -/
def flagAt (inStr : Bool) (chars : List (Char × Bool)) (i : Nat) : Bool :=
  inStr ^^ decide (((chars.take i).map Prod.fst).count '\'' % 2 = 1)

/-- At every question mark the flag tells whether it is quoted. -/
def Tracked (inStr : Bool) (chars : List (Char × Bool)) : Prop :=
  ∀ i quoted, chars[i]? = some ('?', quoted) → quoted = flagAt inStr chars i

theorem flagAt_succ (inStr quoted : Bool) (c : Char) (chars : List (Char × Bool)) (i : Nat) :
    flagAt inStr ((c, quoted) :: chars) (i + 1) = flagAt (if c = '\'' then !inStr else inStr) chars i := by
  by_cases quote : c = '\''
  · have parity : ∀ k : Nat, decide ((k + 1) % 2 = 1) = !decide (k % 2 = 1) := by
      intro k
      by_cases odd : k % 2 = 1
      · simp only [odd, decide_true, Bool.not_true, decide_eq_false_iff_not]
        omega
      · simp only [odd, decide_false, Bool.not_false, decide_eq_true_eq]
        omega
    simp [flagAt, quote, parity]
  · simp [flagAt, quote]

theorem tracked_cons (inStr quoted : Bool) (c : Char) (chars : List (Char × Bool)) :
    Tracked inStr ((c, quoted) :: chars) ↔
      (c = '?' → quoted = inStr) ∧ Tracked (if c = '\'' then !inStr else inStr) chars := by
  constructor
  · intro tracked
    constructor
    · rintro rfl
      simpa [flagAt] using tracked 0 quoted rfl
    · intro i quoted' found
      rw [tracked (i + 1) quoted' found, flagAt_succ]
  · rintro ⟨first, rest⟩ i quoted' found
    cases i with
    | zero =>
      obtain ⟨rfl, rfl⟩ : c = '?' ∧ quoted = quoted' := by simpa using found
      simpa [flagAt] using first rfl
    | succ i => rw [flagAt_succ, rest i quoted' found]

/-- Behind the last number of a `u32` stands none that a text could go on with. -/
theorem dollar_wraps (rest rest' : List Char) : dollar 0 ++ rest ≠ dollar (2 ^ 32) ++ rest' := by
  have zero : dollar 0 = ['$', '0'] := by decide
  have most : dollar (2 ^ 32) = ['$', '4', '2', '9', '4', '9', '6', '7', '2', '9', '6'] := by decide
  rw [zero, most]
  simp

theorem filled_original (n : Nat) (chars : List (Char × Bool)) :
    filled (fun _ => ['?']) n chars = chars.map Prod.fst := by
  induction chars generalizing n with
  | nil => rfl
  | cons head chars ih =>
    obtain ⟨c, quoted⟩ := head
    simp only [filled, ih, List.map_cons, List.cons_append, List.nil_append]
    split
    next bind => rw [bind.1]
    next => rfl

theorem rewriteFrom_iff (chars : List (Char × Bool)) {n : Nat} {inStr : Bool} (low : n < 2 ^ 32) :
    rewriteFrom n inStr (chars.map Prod.fst) = filled dollar n chars ↔
      n + binds chars < 2 ^ 32 ∧ Tracked inStr chars := by
  induction chars generalizing n inStr with
  | nil => exact iff_of_true rfl ⟨low, fun i quoted found => by simp at found⟩
  | cons head chars ih =>
    obtain ⟨c, quoted⟩ := head
    rw [tracked_cons, List.map_cons, rewriteFrom, filled]
    by_cases quote : c = '\''
    · subst quote
      have count : binds (('\'', quoted) :: chars) = binds chars := by simp [binds]
      simpa [count] using ih low
    by_cases mark : c = '?'
    · subst mark
      cases quoted <;> cases inStr
      · -- both take it for a placeholder
        have count : binds (('?', false) :: chars) = binds chars + 1 := by simp [binds]
        by_cases last : n + 1 < 2 ^ 32
        · have same : (n + 1) % 2 ^ 32 = n + 1 := Nat.mod_eq_of_lt last
          have more : n + (binds chars + 1) = n + 1 + binds chars := by omega
          rw [same, count, more]
          simpa using ih last
        · obtain rfl : n = 2 ^ 32 - 1 := by omega
          refine iff_of_false ?_ ?_
          · simpa using dollar_wraps _ _
          · rw [count]
            rintro ⟨more, _⟩
            omega
      · simp [dollar]
      · simp [dollar]
      · have count : binds (('?', true) :: chars) = binds chars := by simp [binds]
        simpa [count] using ih low
    · have count : binds ((c, quoted) :: chars) = binds chars := by simp [binds, mark]
      simpa [count, quote, mark] using ih low

theorem map_scan (region : Region) (taken : Nat) (chars : List Char) :
    (scan region taken chars).map Prod.fst = chars := by
  induction chars generalizing region taken with
  | nil => cases taken <;> rfl
  | cons c rest ih => cases taken <;> simp [scan, ih]

/-- The marked text is the text. -/
theorem map_marked (sql : String) : (marked sql).map Prod.fst = sql.toList := map_scan _ _ _

def quotesBefore (sql : String) (i : Nat) : Nat := (sql.toList.take i).count '\''

theorem flagAt_marked (sql : String) (i : Nat) :
    flagAt false (marked sql) i = decide (quotesBefore sql i % 2 = 1) := by
  rw [flagAt, List.map_take, map_marked, Bool.false_xor, quotesBefore]

theorem faithful_tracked (sql : String) :
    Faithful sql ↔ binds (marked sql) < 2 ^ 32 ∧ Tracked false (marked sql) := by
  rw [Faithful, toPgPlaceholders, String.ofList_inj, ← map_marked, rewriteFrom_iff _ (by decide), Nat.zero_add]

/-- No backslash, no double quote, no dollar and no comment. -/
structure Plain (chars : List Char) : Prop where
  marks : ∀ c ∈ chars, c ≠ '\\' ∧ c ≠ '"' ∧ c ≠ '$'
  lines : ¬ ['-', '-'] <:+: chars
  blocks : ¬ ['/', '*'] <:+: chars

theorem Plain.rest {c : Char} {rest : List Char} (plain : Plain (c :: rest)) : Plain rest where
  marks c' member := plain.marks c' (by simp [member])
  lines found := plain.lines (found.trans (List.suffix_cons c rest).isInfix)
  blocks found := plain.blocks (found.trans (List.suffix_cons c rest).isInfix)

theorem pair_within {a b : Char} {rest : List Char} (next : rest.head? = some b) : [a, b] <:+: a :: rest := by
  cases rest with
  | nil => cases next
  | cons b' rest =>
    obtain rfl : b' = b := by simpa using next
    exact ⟨[], rest, rfl⟩

/-- The flag and the region of a plain text agree, except between the two quotes of a doubled one and before the
quote of an escape string. -/
inductive Follows : Bool → Region → Nat → List Char → Prop where
  | code (named : Bool) (chars : List Char) : Follows false (.code named) 0 chars
  | ended (newline : Bool) (chars : List Char) : Follows false (.ended newline) 0 chars
  | literal (chars : List Char) : Follows true .literal 0 chars
  | escape (chars : List Char) : Follows true .escape 0 chars
  | doubled (rest : List Char) : Follows false .literal 1 ('\'' :: rest)
  | opening (rest : List Char) : Follows false .escape 1 ('\'' :: rest)

/-- The quote that ends a literal, or the first one of two in it. -/
theorem Follows.closed {here behind : Region} (stays : ∀ rest, Follows true here 0 rest)
    (doubles : ∀ rest, Follows false here 1 ('\'' :: rest)) (leaves : ∀ rest, Follows false behind 0 rest) (c : Char)
    (rest : List Char) :
    Follows (if c = '\'' then !true else true) (Region.closed '\'' here behind c rest).1
      (Region.closed '\'' here behind c rest).2 rest := by
  unfold Region.closed
  by_cases quote : c = '\''
  · cases rest with
    | nil => simpa [quote] using leaves []
    | cons next rest =>
      by_cases double : next = '\''
      · simpa [quote, double] using doubles rest
      · simpa [quote, double] using leaves (next :: rest)
  · simpa [quote] using stays rest

theorem Follows.opened {c : Char} {rest : List Char} (plain : Plain (c :: rest)) (named : Bool) :
    Follows (if c = '\'' then !false else false)
      (Region.opened named c rest).1 (Region.opened named c rest).2 rest := by
  obtain ⟨_, double, money⟩ := plain.marks c (by simp)
  unfold Region.opened
  by_cases quote : c = '\''
  · simpa [quote] using literal rest
  rw [if_neg quote, if_neg quote, if_neg double]
  split
  next start =>
    obtain ⟨tail, rfl⟩ : ∃ tail, rest = '\'' :: tail := by
      cases rest with
      | nil => simp at start
      | cons next tail => exact ⟨tail, by simpa using start.2.2⟩
    exact opening tail
  next =>
    have line : ¬ (c = '-' ∧ rest.head? = some '-') := by
      rintro ⟨rfl, next⟩
      exact plain.lines (pair_within next)
    have block : ¬ (c = '/' ∧ rest.head? = some '*') := by
      rintro ⟨rfl, next⟩
      exact plain.blocks (pair_within next)
    rw [if_neg line, if_neg block, if_neg fun start => money start.1]
    exact code _ rest

theorem Follows.continued {c : Char} {rest : List Char} (plain : Plain (c :: rest)) (newline : Bool) :
    Follows (if c = '\'' then !false else false)
      (Region.continued newline c rest).1 (Region.continued newline c rest).2 rest := by
  unfold Region.continued
  by_cases line : isNewline c = true
  · have other : c ≠ '\'' := by
      rintro rfl
      exact absurd line (by decide)
    simpa [line, other] using ended true rest
  by_cases space : isSpace c = true
  · have other : c ≠ '\'' := by
      rintro rfl
      exact absurd space (by decide)
    simpa [line, space, other] using ended newline rest
  have comment : ¬ (c = '-' ∧ rest.head? = some '-') := by
    rintro ⟨rfl, next⟩
    exact plain.lines (pair_within next)
  rw [if_neg line, if_neg space, if_neg comment]
  by_cases goes : c = '\'' ∧ newline = true
  · rw [if_pos goes]
    simpa [goes.1] using escape rest
  · rw [if_neg goes]
    exact opened plain false

theorem Follows.tracked {chars : List Char} (plain : Plain chars) {inStr : Bool} {region : Region} {taken : Nat}
    (follows : Follows inStr region taken chars) : Tracked inStr (scan region taken chars) := by
  induction chars generalizing inStr region taken with
  | nil => cases follows <;> simp [scan, Tracked]
  | cons c rest ih =>
    cases follows with
    | code named => exact (tracked_cons ..).mpr ⟨fun _ => rfl, ih plain.rest (opened plain named)⟩
    | ended newline => exact (tracked_cons ..).mpr ⟨fun _ => rfl, ih plain.rest (continued plain newline)⟩
    | literal => exact (tracked_cons ..).mpr ⟨fun _ => rfl, ih plain.rest (closed literal doubled (code false) c rest)⟩
    | escape =>
      have next : Region.next c rest .escape = Region.closed '\'' .escape (.ended false) c rest :=
        if_neg (plain.marks c (by simp)).1
      refine (tracked_cons ..).mpr ⟨fun _ => rfl, ?_⟩
      rw [next]
      exact ih plain.rest (closed escape opening (ended false) c rest)
    | doubled => exact (tracked_cons ..).mpr ⟨by simp, ih plain.rest (literal rest)⟩
    | opening => exact (tracked_cons ..).mpr ⟨by simp, ih plain.rest (escape rest)⟩

/-- Where string literals are the only quoted text and nothing is escaped, the rewriting is faithful. -/
theorem plain_faithful {sql : String} (plain : Plain sql.toList)
    (few : binds (marked sql) < 2 ^ 32) : Faithful sql := by
  have tracked : Tracked false (marked sql) := Follows.tracked plain (.code false sql.toList)
  exact (faithful_tracked sql).mpr ⟨few, tracked⟩

/-- The rewriting is faithful exactly to a text with fewer than 2^32 bind question marks of which each question
mark has an odd number of single quotes before it if it stands in a literal, a quoted identifier or a comment,
and an even number if it does not. -/
theorem rewrite_faithful_iff (sql : String) :
    Faithful sql ↔ binds (marked sql) < 2 ^ 32 ∧
      ∀ i quoted, (marked sql)[i]? = some ('?', quoted) → (quoted = true ↔ quotesBefore sql i % 2 = 1) := by
  rw [faithful_tracked, Tracked]
  refine and_congr_right fun _ => forall_congr' fun i => forall_congr' fun quoted => imp_congr_right fun _ => ?_
  rw [flagAt_marked, Bool.eq_iff_iff, decide_eq_true_eq]

/-- A quote that a backslash takes into its literal turns the flag. -/
theorem escaped_quote_misread : ¬ Faithful "SELECT E'it\\'s ?' , ? FROM t" := by
  unfold Faithful
  decide

/-- The same behind a newline, where the literal goes on with the escapes of the one before. -/
example : ¬ Faithful "SELECT E'a' -- and\n 'it\\'s ?' , ?" := by
  unfold Faithful
  decide

end Durare.Placeholders

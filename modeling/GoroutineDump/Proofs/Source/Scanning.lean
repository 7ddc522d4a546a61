import GoroutineDump.Proofs.Source.GoLexeme
import GoroutineDump.Proofs.Source.Tokenizing

/-!
`Scans cs tokens rest` says that cutting `cs` from its beginning gives the tokens and leaves the
rest.
-/

set_option autoImplicit false
set_option relaxedAutoImplicit false

namespace GoroutineDump.Source

/-! ### Cuts -/

private theorem exists_of_firstRule? {rules : List (Lexeme × TokenClass)} {cs : List Char}
    {cut : Cut}
    (h : firstRule? rules cs = some cut) :
    ∃ lexeme, (lexeme, cut.tokenClass) ∈ rules ∧ lexeme.read cs = some (cut.taken, cut.rest) := by
  obtain ⟨⟨lexeme, tokenClass⟩, hrule, hcut⟩ := List.exists_of_findSome?_eq_some h
  obtain ⟨⟨taken, rest⟩, hread, rfl⟩ := Option.map_eq_some_iff.mp hcut
  exact ⟨lexeme, hrule, hread⟩

private theorem firstRule?_eq_none_iff {rules : List (Lexeme × TokenClass)} {cs : List Char} :
    firstRule? rules cs = none ↔ ∀ rule ∈ rules, rule.1.read cs = none := by
  simp only [firstRule?, List.findSome?_eq_none_iff, Option.map_eq_none_iff]

/-- A text begins with a block comment or a raw string, whether or not it is closed. -/
def Opens (cs : List Char) : Prop := ['/', '*'] <+: cs ∨ ['\x60'] <+: cs

/-- What can be cut off a text: what is open at its beginning, as far as its closing mark; else a
name; else what the first rule that applies takes, or else the first character. -/
inductive CutsOff : List Char → Cut → Prop
  | blockComment {cs taken rest : List Char} : blockComment.read cs = some (taken, rest) →
      CutsOff cs ⟨.commentMultiline, taken, rest⟩
  | rawString {cs taken rest : List Char} : rawString.read cs = some (taken, rest) →
      CutsOff cs ⟨.stringBacktick, taken, rest⟩
  | name {cs word rest : List Char} : ¬ Opens cs → GoLexeme.name.read cs = some (word, rest) →
      CutsOff cs ⟨GoWord.classify (String.ofList word) (rest.head? = some '('), word, rest⟩
  | rule {cs : List Char} {cut : Cut} : ¬ Opens cs → GoLexeme.name.read cs = none →
      firstRule? goRules cs = some cut → CutsOff cs cut
  | error {c : Char} {cs : List Char} : ¬ Opens (c :: cs) → GoLexeme.name.read (c :: cs) = none →
      firstRule? goRules (c :: cs) = none → CutsOff (c :: cs) ⟨.error, [c], cs⟩

private theorem prefix_of_read_bracketed {opening closing cs taken rest : List Char}
    (hclosing : closing ≠ [])
    (h : (bracketed opening closing).read cs = some (taken, rest)) : opening <+: cs := by
  obtain ⟨⟨inner, rfl, -⟩, rfl⟩ := (read_bracketed_iff hclosing).mp h
  exact ⟨inner ++ rest, (List.append_assoc _ _ _).symm⟩

private theorem not_opens_cons_iff {c : Char} {cs : List Char} :
    ¬ Opens (c :: cs) ↔ ¬ ['/', '*'].isPrefixOf (c :: cs) = true ∧ c ≠ '\x60' := by
  rw [Opens, not_or, List.isPrefixOf_iff_prefix, List.cons_prefix_cons]
  simp [eq_comm]

private theorem CutsOff.of_nextGoToken {c : Char} {cs : List Char} {cut : Cut}
    (h : nextGoToken c cs = .ok cut) : CutsOff (c :: cs) cut := by
  unfold nextGoToken at h
  split at h
  · split at h
    · next hread =>
      cases h
      exact .blockComment hread
    · cases h
  · next hcomment =>
    split at h
    · split at h
      · next hread =>
        cases h
        exact .rawString hread
      · cases h
    · next hquote =>
      have hopens : ¬ Opens (c :: cs) := not_opens_cons_iff.mpr ⟨hcomment, hquote⟩
      split at h
      · next hread =>
        cases h
        exact .name hopens hread
      · next hname =>
        cases h
        cases hrule : firstRule? goRules (c :: cs) with
        | none => exact .error hopens hname hrule
        | some cut => exact .rule hopens hname hrule

private theorem CutsOff.nextGoToken_eq {c : Char} {cs : List Char} {cut : Cut}
    (h : CutsOff (c :: cs) cut) :
    nextGoToken c cs = .ok cut := by
  cases h with
  | blockComment hread =>
    have hopen := List.isPrefixOf_iff_prefix.mpr (prefix_of_read_bracketed (by decide) hread)
    rw [nextGoToken, if_pos hopen, hread]
  | rawString hread =>
    obtain ⟨rest, hrest⟩ := prefix_of_read_bracketed (by decide) hread
    obtain rfl : '\x60' = c := (List.cons.inj hrest).1
    rw [nextGoToken, if_neg (by simp), if_pos rfl, hread]
  | name hopens hread =>
    obtain ⟨hcomment, hquote⟩ := not_opens_cons_iff.mp hopens
    rw [nextGoToken, if_neg hcomment, if_neg hquote, hread]
  | rule hopens hname hrule =>
    obtain ⟨hcomment, hquote⟩ := not_opens_cons_iff.mp hopens
    rw [nextGoToken, if_neg hcomment, if_neg hquote, hname, hrule]
    rfl
  | error hopens hname hrule =>
    obtain ⟨hcomment, hquote⟩ := not_opens_cons_iff.mp hopens
    rw [nextGoToken, if_neg hcomment, if_neg hquote, hname, hrule]
    rfl

theorem nextGoToken_eq_ok_iff {c : Char} {cs : List Char} {cut : Cut} :
    nextGoToken c cs = .ok cut ↔ CutsOff (c :: cs) cut :=
  ⟨.of_nextGoToken, CutsOff.nextGoToken_eq⟩

/-! ### Scans -/

def Cut.token (cut : Cut) : Token := ⟨cut.tokenClass, String.ofList cut.taken⟩

/-- Tokens are cut off the front of a text, one after another, down to a rest. -/
inductive Scans : List Char → List Token → List Char → Prop
  | stop (cs : List Char) : Scans cs [] cs
  | cut {c : Char} {cs rest : List Char} {cut : Cut} {tokens : List Token} :
      nextGoToken c cs = .ok cut → Scans cut.rest tokens rest →
      Scans (c :: cs) (cut.token :: tokens) rest

private theorem scanGoFrom_of_ok {done : List Token} {c : Char} {cs : List Char} {cut : Cut}
    (h : nextGoToken c cs = .ok cut) :
    scanGoFrom done (c :: cs) = scanGoFrom (cut.token :: done) cut.rest := by
  rw [scanGoFrom]
  split
  · next fault hfault =>
    rw [hfault] at h
    cases h
  · next other hother =>
    rw [hother, Except.ok.injEq] at h
    rw [h]
    rfl

private theorem scanGoFrom_of_error {done : List Token} {c : Char} {cs : List Char}
    {fault : LexFault}
    (h : nextGoToken c cs = .error fault) :
    scanGoFrom done (c :: cs) = ⟨done.reverse, some fault⟩ := by
  rw [scanGoFrom]
  split
  · next other hother =>
    rw [hother, Except.error.injEq] at h
    rw [h]
  · next cut hcut =>
    rw [hcut] at h
    cases h

private theorem Scans.scanGoFrom_eq {cs rest : List Char} {tokens : List Token}
    (h : Scans cs tokens rest) (done : List Token) :
    scanGoFrom done cs = scanGoFrom (tokens.reverse ++ done) rest := by
  induction h generalizing done with
  | stop cs => rfl
  | cut hcut _ ih =>
    rw [scanGoFrom_of_ok hcut, ih, List.reverse_cons, List.append_assoc]
    rfl

private theorem Scans.append_eq {cs rest : List Char} {tokens : List Token}
    (h : Scans cs tokens rest) :
    sourceText tokens ++ rest = cs := by
  induction h with
  | stop cs => rfl
  | cut hcut _ ih =>
    rw [← (nextGoToken_append hcut).1, ← ih, ← List.append_assoc]
    refine congrArg (· ++ _) ?_
    simp [sourceText, Cut.token]

private theorem exists_scans (cs : List Char) :
    ∃ tokens rest, Scans cs tokens rest ∧
      (rest = [] ∨ ∃ c back fault, rest = c :: back ∧ nextGoToken c back = .error fault) := by
  induction hlength : cs.length using Nat.strong_induction_on generalizing cs with
  | h n ih =>
    subst hlength
    cases cs with
    | nil => exact ⟨[], [], .stop [], .inl rfl⟩
    | cons c cs =>
      cases hnext : nextGoToken c cs with
      | error fault => exact ⟨[], c :: cs, .stop _, .inr ⟨c, cs, fault, rfl, hnext⟩⟩
      | ok cut =>
        obtain ⟨tokens, rest, hscan, hend⟩ :=
          ih cut.rest.length (length_rest_nextGoToken hnext) cut.rest rfl
        exact ⟨cut.token :: tokens, rest, .cut hnext hscan, hend⟩

private theorem Scans.scanGo_eq {cs : List Char} {tokens : List Token} (h : Scans cs tokens []) :
    scanGo cs = ⟨tokens, none⟩ := by
  rw [scanGo, h.scanGoFrom_eq, scanGoFrom]
  simp

private theorem Scans.scanGo_eq_of_error {cs back : List Char} {c : Char} {tokens : List Token}
    {fault : LexFault} (h : Scans cs tokens (c :: back)) (hfault : nextGoToken c back = .error fault) :
    scanGo cs = ⟨tokens, some fault⟩ := by
  rw [scanGo, h.scanGoFrom_eq, scanGoFrom_of_error hfault]
  simp

/-- A Go text is accepted exactly when a scan of it leaves nothing. -/
theorem tokenize_eq_ok_iff {text : String} {tokens : List Token} :
    tokenize .go text = .ok tokens ↔ Scans text.toList tokens [] := by
  constructor
  · intro h
    obtain ⟨found, rest, hscan, rfl | ⟨c, back, fault, rfl, hfault⟩⟩ := exists_scans text.toList
    · simp only [tokenize, hscan.scanGo_eq, Except.ok.injEq] at h
      exact h ▸ hscan
    · simp only [tokenize, hscan.scanGo_eq_of_error hfault] at h
      cases h
  · intro h
    simp only [tokenize, h.scanGo_eq]

/-- A Go text is refused exactly when a scan of it comes to a rest with a fault. -/
theorem tokenize_eq_error_iff {text : String} {e : LexError} :
    tokenize .go text = .error e ↔
      ∃ tokens c back, Scans text.toList tokens (c :: back) ∧
        nextGoToken c back = .error e.fault ∧ e.line = 1 + newlines tokens := by
  constructor
  · intro h
    obtain ⟨tokens, rest, hscan, rfl | ⟨c, back, fault, rfl, hfault⟩⟩ := exists_scans text.toList
    · simp only [tokenize, hscan.scanGo_eq] at h
      cases h
    · simp only [tokenize, hscan.scanGo_eq_of_error hfault, Except.error.injEq] at h
      subst h
      exact ⟨tokens, c, back, hscan, hfault, rfl⟩
  · rintro ⟨tokens, c, back, hscan, hfault, hline⟩
    simp only [tokenize, hscan.scanGo_eq_of_error hfault, ← hline]

def TokenClass.isWord : TokenClass → Bool
  | .keyword | .keywordConstant | .keywordDeclaration | .keywordNamespace | .keywordType | .name
  | .nameBuiltin | .nameFunction => true
  | _ => false

def GoWord.known : List String :=
  namespaceKeywords ++ declarationKeywords ++ keywords ++ constants ++ types ++ builtins

def IsNameCharacter (c : Char) : Prop :=
  Unicode.isLetter c = true ∨ Unicode.isNumber c = true ∨ c = '_'

/-- A letter or an underscore with the characters behind it that can stand in a name, all of them. -/
def IsName (text following : List Char) : Prop :=
  (∃ first more, text = first :: more ∧ (Unicode.isLetter first = true ∨ first = '_') ∧
    ∀ c ∈ more, IsNameCharacter c) ∧
  ∀ c, following.head? = some c → ¬ IsNameCharacter c

/-- How the tokens of a class begin and end in front of the text that follows. -/
def TokenClass.Bounds (text following : List Char) : TokenClass → Prop
  | .text => (∀ c ∈ text, Unicode.isSpace c = true) ∧
      ∀ c, following.head? = some c → Unicode.isSpace c = false
  | .commentSingle => ['/', '/'] <+: text ∧ (following = [] ∨ following.head? = some '\n')
  | .commentMultiline => ∃ inner, text = ['/', '*'] ++ inner ∧ EndsFirst ['*', '/'] inner
  | .keyword | .keywordConstant | .keywordDeclaration | .keywordNamespace | .keywordType | .name
  | .nameBuiltin | .nameFunction => IsName text following
  | .string => ∃ inner, GoLexeme.IsQuoted inner ∧ text = '\x22' :: (inner ++ ['\x22'])
  | .stringBacktick => ∃ inner, text = '\x60' :: (inner ++ ['\x60']) ∧ '\x60' ∉ inner
  | .error => ∃ c, text = [c]
  | .stringChar | .numberBin | .numberFloat | .numberHex | .numberInteger | .numberOct | .operator
  | .punctuation => True

structure IsBounded (tokenClass : TokenClass) (text following : List Char) : Prop where
  bounds : tokenClass.Bounds text following
  called : tokenClass.isWord = true → (tokenClass = .nameFunction ↔
    String.ofList text ∉ GoWord.known ∧ following.head? = some '(')
  lineFeed : '\n' ∈ text →
    tokenClass = .text ∨ tokenClass = .commentMultiline ∨ tokenClass = .stringBacktick

/-! ### Names -/

private theorem isWord_classify (word : String) (called : Bool) :
    (GoWord.classify word called).isWord = true := by
  unfold GoWord.classify
  split_ifs <;> rfl

private theorem classify_eq_nameFunction_iff {word : String} {called : Bool} :
    GoWord.classify word called = .nameFunction ↔ word ∉ GoWord.known ∧ called = true := by
  simp only [GoWord.classify, GoWord.known, List.mem_append]
  split_ifs <;> simp_all

private theorem TokenClass.bounds_of_isWord {tokenClass : TokenClass} {text following : List Char}
    (hword : tokenClass.isWord = true) (h : IsName text following) :
    tokenClass.Bounds text following := by
  cases tokenClass <;> first | exact h | cases hword

private theorem isNameCharacter_iff {c : Char} :
    IsNameCharacter c ↔ GoLexeme.isNamePart c = true := by
  simp only [IsNameCharacter, GoLexeme.isNamePart, GoLexeme.isNameStart, Bool.or_eq_true,
    beq_iff_eq]
  tauto

/-! ### What one cut takes -/

section Bounds

variable {c : Char} {cs taken rest : List Char}

private theorem isBounded_blockComment (h : blockComment.read cs = some (taken, rest)) :
    IsBounded .commentMultiline taken rest := by
  obtain ⟨hinner, -⟩ := (read_bracketed_iff (by decide)).mp h
  exact ⟨hinner, fun hword => Bool.noConfusion hword, fun _ => .inr (.inl rfl)⟩

private theorem isBounded_rawString (h : rawString.read cs = some (taken, rest)) :
    IsBounded .stringBacktick taken rest := by
  obtain ⟨⟨inner, rfl, ⟨body, rfl⟩, hfirst⟩, -⟩ := (read_bracketed_iff (by decide)).mp h
  refine ⟨⟨body, rfl, fun hmem => ?_⟩, fun hword => Bool.noConfusion hword,
    fun _ => .inr (.inr rfl)⟩
  obtain ⟨before, after, rfl⟩ := List.append_of_mem hmem
  have hnil := hfirst before (after ++ ['\x60']) (by simp)
  simp at hnil

private theorem isBounded_name (h : GoLexeme.name.read cs = some (taken, rest)) :
    IsBounded (GoWord.classify (String.ofList taken) (rest.head? = some '(')) taken rest := by
  have hword := isWord_classify (String.ofList taken) (rest.head? = some '(')
  have hlineFeed := GoLexeme.name_avoids h
  obtain ⟨_, middle, more, hfirst, hmore, rfl⟩ := Lexeme.read_andThen_iff.mp h
  obtain ⟨⟨first, hstart, rfl⟩, -⟩ := Lexeme.read_one_iff.mp hfirst
  obtain ⟨-, hparts, hstop⟩ := Lexeme.read_many_iff.mp hmore
  refine ⟨TokenClass.bounds_of_isWord hword ⟨⟨first, more, rfl, ?_, ?_⟩, ?_⟩, fun _ => ?_,
    fun hmem => absurd hmem hlineFeed⟩
  · simpa [GoLexeme.isNameStart, or_comm] using hstart
  · exact fun c hc => isNameCharacter_iff.mpr (hparts c hc)
  · exact fun c hc hname => absurd (isNameCharacter_iff.mp hname) (by simp [hstop c hc])
  · simp [classify_eq_nameFunction_iff]

private theorem bounds_space (h : GoLexeme.space.read cs = some (taken, rest)) :
    TokenClass.text.Bounds taken rest := by
  obtain ⟨_, middle, more, hfirst, hmore, rfl⟩ := Lexeme.read_andThen_iff.mp h
  obtain ⟨⟨first, hspace, rfl⟩, -⟩ := Lexeme.read_one_iff.mp hfirst
  obtain ⟨-, hspaces, hstop⟩ := Lexeme.read_many_iff.mp hmore
  exact ⟨List.forall_mem_cons.mpr ⟨hspace, hspaces⟩, hstop⟩

private theorem bounds_lineComment (h : GoLexeme.lineComment.read cs = some (taken, rest)) :
    TokenClass.commentSingle.Bounds taken rest := by
  obtain ⟨_, middle, more, hfirst, hmore, rfl⟩ := Lexeme.read_andThen_iff.mp h
  obtain ⟨rfl, -⟩ := Lexeme.read_exactly_iff.mp hfirst
  obtain ⟨-, -, hstop⟩ := Lexeme.read_many_iff.mp hmore
  refine ⟨List.prefix_append _ more, ?_⟩
  cases rest with
  | nil => exact .inl rfl
  | cons c rest => exact .inr (by simpa using hstop c rfl)

private theorem isBounded_rule {rule : Lexeme × TokenClass} (hrule : rule ∈ goRules)
    (h : rule.1.read cs = some (taken, rest)) : IsBounded rule.2 taken rest := by
  have hclasses : ∀ rule ∈ goRules, rule.2.isWord = false := by
    simp [goRules, TokenClass.isWord]
  refine ⟨?_, fun hword => by simp [hclasses rule hrule] at hword, fun hmem => ?_⟩
  · simp only [goRules, List.mem_cons, List.not_mem_nil, or_false] at hrule
    rcases hrule with rfl | rfl | rfl | rfl | rfl | rfl | rfl | rfl | rfl | rfl | rfl
    · exact bounds_space h
    · exact bounds_lineComment h
    · trivial
    · exact (GoLexeme.read_stringLiteral_iff.mp h).1
    all_goals trivial
  · exact .inl (by_contra fun hclass => goRules_avoids rule hrule hclass h hmem)

private theorem isBounded_error (h : firstRule? goRules (c :: cs) = none) :
    IsBounded .error [c] cs := by
  refine ⟨⟨c, rfl⟩, fun hword => Bool.noConfusion hword, fun hmem => ?_⟩
  obtain rfl := List.mem_singleton.mp hmem
  have hspace := firstRule?_eq_none_iff.mp h (GoLexeme.space, .text) List.mem_cons_self
  cases hspace

private theorem CutsOff.isBounded {cut : Cut} (h : CutsOff cs cut) :
    IsBounded cut.tokenClass cut.taken cut.rest := by
  cases h with
  | blockComment hread => exact isBounded_blockComment hread
  | rawString hread => exact isBounded_rawString hread
  | name _ hread => exact isBounded_name hread
  | rule _ _ hrule =>
    obtain ⟨lexeme, hmem, hread⟩ := exists_of_firstRule? hrule
    exact isBounded_rule hmem hread
  | error _ _ hrule => exact isBounded_error hrule

/-! ### What a scan takes -/

private theorem Scans.isBounded {tokens : List Token} (h : Scans cs tokens rest)
    {before after : List Token}
    {t : Token} (ht : tokens = before ++ t :: after) :
    IsBounded t.tokenClass t.text.toList (sourceText after ++ rest) := by
  induction h generalizing before with
  | stop cs => simp at ht
  | cut hcut hscan ih =>
    cases before with
    | nil =>
      obtain ⟨rfl, rfl⟩ := List.cons.inj ht
      rw [hscan.append_eq, Cut.token, String.toList_ofList]
      exact (nextGoToken_eq_ok_iff.mp hcut).isBounded
    | cons first before => exact ih (List.cons.inj ht).2

/-- The boundaries of the tokens of a Go text are tight. With the text that stands behind it, each
token ends where its class says: comments and strings at the first mark that closes them, white
space and names as late as they can, other characters by themselves. A name is that of a function
when it is not known beforehand and an opening parenthesis follows, and no token goes on behind the
end of a line but white space, block comments and raw strings. -/
theorem tokenize_bounds {text : String} {tokens : List Token} (h : tokenize .go text = .ok tokens)
    {before after : List Token} {t : Token} (ht : tokens = before ++ t :: after) :
    text.toList = sourceText before ++ (t.text.toList ++ sourceText after) ∧
      IsBounded t.tokenClass t.text.toList (sourceText after) := by
  have hscan := tokenize_eq_ok_iff.mp h
  constructor
  · rw [← sourceText_tokenize h, ht]
    simp [sourceText]
  · have hbounded := hscan.isBounded ht
    rwa [List.append_nil] at hbounded

theorem tokenize_bounds_misleading :
    tokenize .go "/*/\n*/λ¹(\"\\\"//\")" = .ok [⟨.commentMultiline, "/*/\n*/"⟩,
      ⟨.nameFunction, "λ¹"⟩, ⟨.punctuation, "("⟩, ⟨.string, "\"\\\"//\""⟩, ⟨.punctuation, ")"⟩] ∧
    "/*/\n*/λ¹(\"\\\"//\")".toList = "/*/\n*/λ¹(".toList ++ ("\"\\\"//\"".toList ++ [')']) ∧
    IsBounded .string "\"\\\"//\"".toList [')'] := by
  have htokens : tokenize .go "/*/\n*/λ¹(\"\\\"//\")" = .ok ([⟨.commentMultiline, "/*/\n*/"⟩,
      ⟨.nameFunction, "λ¹"⟩, ⟨.punctuation, "("⟩] ++ ⟨.string, "\"\\\"//\""⟩ ::
        [⟨.punctuation, ")"⟩]) := by
    decide +kernel
  exact ⟨htokens, tokenize_bounds htokens rfl⟩

end Bounds

variable {c : Char} {cs back taken rest : List Char} {tokenClass : TokenClass}
  {rules : List (Lexeme × TokenClass)}

/-! ### Cuts at the end of a text -/

private theorem firstRule?_refused (hrules : ∀ rule ∈ rules, rule.1.IsLocal)
    (h : firstRule? rules (cs ++ back) = none) : firstRule? rules cs = none := by
  rw [firstRule?_eq_none_iff] at h ⊢
  exact fun rule hrule => (hrules rule hrule).refused (h rule hrule)

private theorem firstRule?_of_append (hrules : ∀ rule ∈ rules, rule.1.IsLocal)
    (h : firstRule? rules (cs ++ back) = some ⟨tokenClass, taken, rest ++ back⟩) :
    firstRule? rules cs = some ⟨tokenClass, taken, rest⟩ := by
  obtain ⟨before, ⟨lexeme, found⟩, after, rfl, hread, hbefore⟩ := List.findSome?_eq_some_iff.mp h
  obtain ⟨⟨first, behind⟩, hlexeme, hcut⟩ := Option.map_eq_some_iff.mp hread
  rw [Cut.mk.injEq] at hcut
  obtain ⟨rfl, rfl, rfl⟩ := hcut
  refine List.findSome?_eq_some_iff.mpr ⟨before, (lexeme, found), after, rfl, ?_, ?_⟩
  · have hlocal := hrules (lexeme, found) (by simp)
    exact Option.map_eq_some_iff.mpr ⟨(first, rest), hlocal.cut hlexeme, rfl⟩
  · intro rule hrule
    have hlocal := hrules rule (List.mem_append_left _ hrule)
    have hnone := Option.map_eq_none_iff.mp (hbefore rule hrule)
    exact Option.map_eq_none_iff.mpr (hlocal.refused hnone)

/-- A text is cut alike where it ends somewhere behind the token, unless what is cut away begins with
an opening parenthesis, which makes a name right in front of it that of a function. -/
private theorem CutsOff.of_append {cut : Cut} (h : CutsOff (c :: (cs ++ back)) cut)
    (hrest : cut.rest = rest ++ back) (hback : back.head? ≠ some '(') :
    CutsOff (c :: cs) ⟨cut.tokenClass, cut.taken, rest⟩ := by
  have hopens (hnot : ¬ Opens (c :: (cs ++ back))) : ¬ Opens (c :: cs) := by
    have hprefix : c :: cs <+: c :: (cs ++ back) := List.prefix_append (c :: cs) back
    exact fun hopen => hnot (hopen.imp (·.trans hprefix) (·.trans hprefix))
  have hrefused (hname : GoLexeme.name.read (c :: (cs ++ back)) = none) :
      GoLexeme.name.read (c :: cs) = none :=
    GoLexeme.name_isLocal.refused hname
  cases h with
  | blockComment hread =>
    obtain rfl := hrest
    exact .blockComment ((bracketed_isLocal (by decide)).cut hread)
  | rawString hread =>
    obtain rfl := hrest
    exact .rawString ((bracketed_isLocal (by decide)).cut hread)
  | name hnot hread =>
    obtain rfl := hrest
    have hcalled : ((rest ++ back).head? = some '(') = (rest.head? = some '(') := by
      cases rest with
      | nil => simpa using hback
      | cons d rest => rfl
    simp only [hcalled]
    exact .name (hopens hnot) (GoLexeme.name_isLocal.cut hread)
  | rule hnot hname hrule =>
    obtain ⟨found, taken, behind⟩ := cut
    obtain rfl := hrest
    exact .rule (hopens hnot) (hrefused hname) (firstRule?_of_append goRules_isLocal hrule)
  | error hnot hname hrule =>
    obtain rfl : cs = rest := List.append_cancel_right hrest
    exact .error (hopens hnot) (hrefused hname) (firstRule?_refused goRules_isLocal hrule)

/-! ### Faults -/

private theorem unclosed_of_nextGoToken_error {fault : LexFault}
    (h : nextGoToken c cs = .error fault) :
    (fault = .unterminatedComment ∧
      ∃ inner, c :: cs = ['/', '*'] ++ inner ∧ ¬ ['*', '/'] <:+: inner) ∨
    (fault = .unterminatedRawString ∧ ∃ inner, c :: cs = ['\x60'] ++ inner ∧ '\x60' ∉ inner) := by
  unfold nextGoToken at h
  split at h
  · next hopen =>
    split at h
    · cases h
    · next hread =>
      cases h
      obtain ⟨inner, hinner⟩ := List.isPrefixOf_iff_prefix.mp hopen
      rw [← hinner] at hread ⊢
      exact .inl ⟨rfl, inner, rfl, (read_bracketed_eq_none_iff (by decide)).mp hread⟩
  · split at h
    · next hquote =>
      split at h
      · cases h
      · next hread =>
        cases h
        subst hquote
        have hclosed : ¬ ['\x60'] <:+: cs := (read_bracketed_eq_none_iff (by decide)).mp hread
        refine .inr ⟨rfl, cs, rfl, fun hmem => hclosed ?_⟩
        obtain ⟨before, after, rfl⟩ := List.append_of_mem hmem
        exact ⟨before, after, by simp⟩
    · split at h <;> cases h

/-- What is scanned before a rest is scanned alike when it stands by itself, unless the rest begins
with an opening parenthesis. -/
theorem Scans.of_rest {tokens : List Token} (h : Scans cs tokens rest)
    (hrest : rest.head? ≠ some '(') : Scans (sourceText tokens) tokens [] := by
  induction h with
  | stop cs => exact .stop []
  | @cut c cs rest cut tokens hcut hscan ih =>
    obtain ⟨happend, hne⟩ := nextGoToken_append hcut
    obtain ⟨first, more, htaken⟩ := List.exists_cons_of_ne_nil hne
    rw [htaken, ← hscan.append_eq, List.cons_append, ← List.append_assoc] at happend
    obtain ⟨rfl, rfl⟩ := List.cons.inj happend
    have hbefore := (nextGoToken_eq_ok_iff.mp hcut).of_append hscan.append_eq.symm hrest
    have hsource : sourceText (cut.token :: tokens) = first :: (more ++ sourceText tokens) := by
      simp [sourceText, Cut.token, htaken]
    rw [hsource]
    exact @Scans.cut first (more ++ sourceText tokens) []
      ⟨cut.tokenClass, cut.taken, sourceText tokens⟩ tokens (nextGoToken_eq_ok_iff.mpr hbefore)
      (ih hrest)

/-- Where a Go text is refused, it goes on with a block comment that is not closed behind its opening,
or with a raw string that is not closed. The text before is accepted by itself and is cut into just
the tokens that were cut off until then, and the line is the one that the comment or the raw string
begins in. -/
theorem tokenize_stops {text : String} {e : LexError} (h : tokenize .go text = .error e) :
    ∃ (before rest : String) (tokens : List Token), text = before ++ rest ∧
      tokenize .go before = .ok tokens ∧ (scanGo text.toList).tokens = tokens ∧
      e.line = 1 + before.toList.count '\n' ∧
      ((e.fault.reason = "unterminated block comment" ∧
          ∃ inner, rest.toList = ['/', '*'] ++ inner ∧ ¬ ['*', '/'] <:+: inner) ∨
        (e.fault.reason = "unterminated raw string" ∧
          ∃ inner, rest.toList = ['\x60'] ++ inner ∧ '\x60' ∉ inner)) := by
  obtain ⟨tokens, c, back, hscan, hfault, hline⟩ := tokenize_eq_error_iff.mp h
  have hunclosed := unclosed_of_nextGoToken_error hfault
  have hhead : (c :: back).head? ≠ some '(' := by
    rcases hunclosed with ⟨-, inner, hinner, -⟩ | ⟨-, inner, hinner, -⟩ <;> simp [hinner]
  have hbefore := hscan.of_rest hhead
  refine ⟨String.ofList (sourceText tokens), String.ofList (c :: back), tokens, ?_, ?_, ?_, ?_, ?_⟩
  · rw [← String.ofList_append, hscan.append_eq, String.ofList_toList]
  · rw [tokenize_eq_ok_iff, String.toList_ofList]
    exact hbefore
  · rw [hscan.scanGo_eq_of_error hfault]
  · rw [hline, newlines_eq_count, String.toList_ofList]
  · rw [String.toList_ofList]
    rcases hunclosed with ⟨hkind, hinner⟩ | ⟨hkind, hinner⟩
    · exact .inl ⟨congrArg LexFault.reason hkind, hinner⟩
    · exact .inr ⟨congrArg LexFault.reason hkind, hinner⟩

theorem tokenize_stops_behindComment :
    tokenize .go "/*\n*/\"\n/*/" = .error ⟨3, .unterminatedComment⟩ ∧
    ∃ (before rest : String) (tokens : List Token), "/*\n*/\"\n/*/" = before ++ rest ∧
      tokenize .go before = .ok tokens ∧ (scanGo "/*\n*/\"\n/*/".toList).tokens = tokens ∧
      3 = 1 + before.toList.count '\n' ∧
      ((LexFault.unterminatedComment.reason = "unterminated block comment" ∧
          ∃ inner, rest.toList = ['/', '*'] ++ inner ∧ ¬ ['*', '/'] <:+: inner) ∨
        (LexFault.unterminatedComment.reason = "unterminated raw string" ∧
          ∃ inner, rest.toList = ['\x60'] ++ inner ∧ '\x60' ∉ inner)) := by
  have hstop : tokenize .go "/*\n*/\"\n/*/" = .error ⟨3, .unterminatedComment⟩ := by
    decide +kernel
  exact ⟨hstop, tokenize_stops hstop⟩

end GoroutineDump.Source

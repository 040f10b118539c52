import ScalarExpr.Proofs.Parsing.Reads

/-!
# The parser accepts exactly the grammar

A reading that yields a tree has taken tokens that derive it, and tokens that derive a tree are
taken by a reading wherever what follows them cannot belong to it. Two trees of the same tokens are
therefore the answer to the same reading, and equal.

What follows a chain may be an operator that binds less tightly, and what follows a whole expression
must be neither an operator nor a question mark.
-/

namespace ScalarExpr

/-- A construct may be opened exactly inside fewer than the greatest number of them. -/
theorem Limits.allowsInside_iff {limits : Limits} {opened : Nat} :
    limits.allowsInside opened = true ↔ ∀ bound ∈ limits.nesting, opened < bound := by
  cases h : limits.nesting <;> simp [allowsInside, h]

/-- A binary operator may make a tree exactly up to the greatest height. -/
theorem Limits.allowsHeight_iff {limits : Limits} {height : Nat} :
    limits.allowsHeight height = true ↔ ∀ bound ∈ limits.height, height ≤ bound := by
  cases h : limits.height <;> simp [allowsHeight, h]

/-- Every binary operator of a tree makes a height that the limits allow. -/
def Limits.Admits (limits : Limits) (e : Expr) : Prop :=
  ∀ bound ∈ limits.height, e.BinariesWithin bound

/-- A leaf is admitted by all limits. -/
theorem Limits.admits_of_children_eq_nil {limits : Limits} {e : Expr} (h : e.children = []) :
    limits.Admits e :=
  fun _ _ => Expr.binariesWithin_of_children_eq_nil h

/-- The root of a chain is admitted with its operands if its height is. -/
theorem Limits.admits_binary {limits : Limits} {op : BinaryOp} {left right : Expr} {pos : Nat} :
    limits.Admits (.binary op left right pos) ↔
      limits.allowsHeight (max left.longestPath right.longestPath + 1) = true ∧
        limits.Admits left ∧ limits.Admits right := by
  simp only [Admits, allowsHeight_iff, Expr.binariesWithin_binary]
  exact ⟨fun h => ⟨fun b hb => (h b hb).1, fun b hb => (h b hb).2.1, fun b hb => (h b hb).2.2⟩,
    fun ⟨hroot, hleft, hright⟩ b hb => ⟨hroot b hb, hleft b hb, hright b hb⟩⟩

/-- A conditional is admitted exactly with its parts. -/
theorem Limits.admits_conditional {limits : Limits} {condition whenTrue whenFalse : Expr} :
    limits.Admits (.conditional condition whenTrue whenFalse) ↔
      limits.Admits condition ∧ limits.Admits whenTrue ∧ limits.Admits whenFalse := by
  simp only [Admits, Expr.binariesWithin_conditional]
  exact ⟨fun h => ⟨fun b hb => (h b hb).1, fun b hb => (h b hb).2.1, fun b hb => (h b hb).2.2⟩,
    fun ⟨hcondition, htrue, hfalse⟩ b hb => ⟨hcondition b hb, htrue b hb, hfalse b hb⟩⟩

/-- A prefix operator is admitted exactly with its operand. -/
theorem Limits.admits_unary {limits : Limits} {op : UnaryOp} {operand : Expr} {pos : Nat} :
    limits.Admits (.unary op operand pos) ↔ limits.Admits operand := by
  simp only [Admits, Expr.binariesWithin_unary]

namespace Parse

variable {setting : Setting} {task : Task} {opened : Nat} {tokens rest : List Token}
  {result : Except ParseError Expr}

/-- What a reading that yields a tree has shown: the tokens that it took derive the tree, for a chain
together with those of the left operand. -/
def Justified (setting : Setting) (opened : Nat) (tokens rest : List Token) (e : Expr) : Task → Prop
  | .form form =>
    ∃ taken, tokens = taken ++ rest ∧ Derives setting.limits.nesting form opened taken e ∧
      setting.limits.Admits e
  | .chain precedence left height =>
    ∀ before, height = left.longestPath → setting.limits.Admits left →
      Derives setting.limits.nesting (.level precedence) opened before left →
      ∃ taken, tokens = taken ++ rest ∧
        Derives setting.limits.nesting (.level precedence) opened (before ++ taken) e ∧
        setting.limits.Admits e

/-- A reading takes tokens that derive its tree. -/
theorem Reads.justified (h : Reads setting task opened tokens result rest) :
    ∀ e, result = .ok e → Justified setting opened tokens rest e task := by
  induction h with
  | conditionFails | questionTooDeep | whenTrueFails | colonMissing | whenFalseFails | leftFails
  | rightFails | tooHigh | prefixTooDeep | prefixFails | endOfInput | invalidNumber | parenTooDeep
  | innerFails | parenMissing | unexpected =>
    intro e he
    cases he
  | plain _ _ ih =>
    intro e he
    obtain ⟨taken, htokens, hderives, hadmits⟩ := ih e he
    exact ⟨taken, htokens, .plain hderives, hadmits⟩
  | choice _ hquestion hallowed _ hcolon _ ih ihTrue ihFalse =>
    intro e he
    cases he
    obtain ⟨first, hfirst, hcondition, hadmits⟩ := ih _ rfl
    obtain ⟨second, hsecond, htrue, hadmitsTrue⟩ := ihTrue _ rfl
    obtain ⟨third, hthird, hfalse, hadmitsFalse⟩ := ihFalse _ rfl
    obtain ⟨question, hrest, hquestionKind, -⟩ := questionAt?_eq_some_iff.mp hquestion
    obtain ⟨hrest', hcolonKind⟩ := Closer.skip?_eq_some_iff.mp hcolon
    refine ⟨_, ?_, .choice hquestionKind hcolonKind (Limits.allowsInside_iff.mp hallowed)
      hcondition htrue hfalse, Limits.admits_conditional.mpr ⟨hadmits, hadmitsTrue, hadmitsFalse⟩⟩
    simp [hfirst, hrest, hsecond, hrest', hthird]
  | chained hlevels _ _ ih ihChain =>
    intro e he
    obtain ⟨before, hbefore, hleft, hadmits⟩ := ih _ rfl
    obtain ⟨taken, htaken, hderives, hadmits⟩ :=
      ihChain e he before (Expr.height_eq_longestPath _) hadmits (.tighter hlevels hleft)
    exact ⟨before ++ taken, by rw [hbefore, htaken, List.append_assoc], hderives, hadmits⟩
  | operand hlevels _ ih =>
    intro e he
    obtain ⟨taken, htokens, hderives, hadmits⟩ := ih e he
    exact ⟨taken, htokens, .operand (Nat.le_of_not_lt hlevels) hderives, hadmits⟩
  | chainEnds _ =>
    intro e he before _ hadmits hleft
    cases he
    exact ⟨[], rfl, by simpa using hleft, hadmits⟩
  | chainGoesOn hoperator _ hallowed _ ih ihChain =>
    intro e he before hheight hadmits hleft
    obtain ⟨after, hafter, hright, hadmitsRight⟩ := ih _ rfl
    obtain ⟨token, htokens, hop, rfl, rfl⟩ := operatorAt?_eq_some_iff.mp hoperator
    rw [Expr.height_eq_longestPath, hheight] at hallowed
    obtain ⟨taken, htaken, hderives, hadmits⟩ :=
      ihChain e he (before ++ token :: after)
        (by rw [hheight, Expr.height_eq_longestPath, Expr.longestPath])
        (Limits.admits_binary.mpr ⟨hallowed, hadmits, hadmitsRight⟩)
        (.chain hop hleft hright)
    refine ⟨token :: (after ++ taken), ?_, by simpa using hderives, hadmits⟩
    rw [htokens, hafter, htaken, List.cons_append, List.append_assoc]
  | noPrefix _ _ ih =>
    intro e he
    obtain ⟨taken, htokens, hderives, hadmits⟩ := ih e he
    exact ⟨taken, htokens, .primary hderives, hadmits⟩
  | prefixOp hop hallowed _ ih =>
    intro e he
    cases he
    obtain ⟨taken, htokens, hderives, hadmits⟩ := ih _ rfl
    exact ⟨_ :: taken, by rw [htokens, List.cons_append],
      .prefixOp (UnaryOp.ofKind?_eq_some_iff.mp hop) (Limits.allowsInside_iff.mp hallowed) hderives,
      Limits.admits_unary.mpr hadmits⟩
  | number hkind hvalue =>
    intro e he
    cases he
    exact ⟨[_], rfl, .number hkind hvalue, Limits.admits_of_children_eq_nil rfl⟩
  | text hkind =>
    intro e he
    cases he
    exact ⟨[_], rfl, .text hkind, Limits.admits_of_children_eq_nil rfl⟩
  | identifier hkind =>
    intro e he
    cases he
    exact ⟨[_], rfl, .identifier hkind, Limits.admits_of_children_eq_nil rfl⟩
  | parentheses hkind hallowed _ hparen ih =>
    intro e he
    obtain ⟨inner, htokens, hderives, hadmits⟩ := ih e he
    obtain ⟨hrest, hparenKind⟩ := Closer.skip?_eq_some_iff.mp hparen
    refine ⟨_ :: (inner ++ [_]), ?_, .parentheses hkind hparenKind
      (Limits.allowsInside_iff.mp hallowed) hderives, hadmits⟩
    simp [htokens, hrest]

/-- What follows cannot go on a chain of this tier or of a tighter one. -/
def EndsChain (tier : Nat) (rest : List Token) : Prop :=
  ∀ token ∈ rest.head?, ∀ op : BinaryOp, token.kind = op.kind → op.tier < tier

/-- A token that stands for no operator ends every chain. -/
theorem endsChain_cons {token : Token} {rest : List Token} (tier : Nat)
    (h : BinaryOp.ofKind? token.kind = none) : EndsChain tier (token :: rest) := by
  intro token' htoken' op hop
  cases htoken'
  rw [← BinaryOp.ofKind?_eq_some_iff, h] at hop
  cases hop

/-- What ends a chain ends the tighter ones. -/
theorem EndsChain.mono {tier tier' : Nat} (h : EndsChain tier rest) (hle : tier ≤ tier') :
    EndsChain tier' rest :=
  fun token htoken op hop => Nat.lt_of_lt_of_le (h token htoken op hop) hle

/-- A chain that is ended there is read to its end. -/
theorem EndsChain.reads {tier height : Nat} {left : Expr} (h : EndsChain tier rest) :
    Reads setting (.chain tier left height) opened rest (.ok left) rest :=
  .chainEnds (operatorAt?_eq_none_iff.mpr fun token htoken op hop =>
    Nat.ne_of_lt (h token htoken op hop))

/-- What a derivation shows: its tokens are read before anything that cannot belong to the form. A
level is read as the left operand of what may follow at that level. -/
def Readable (setting : Setting) (opened : Nat) (taken : List Token) (e : Expr) : Form → Prop
  | .conditional =>
    ∀ rest, EndsChain 0 rest → questionAt? rest = none →
      Reads setting (.form .conditional) opened (taken ++ rest) (.ok e) rest
  | .level tier =>
    ∀ rest, EndsChain (tier + 1) rest →
      (BinaryOp.tiers.length ≤ tier →
        Reads setting (.form (.level tier)) opened (taken ++ rest) (.ok e) rest) ∧
      (tier < BinaryOp.tiers.length → ∀ result rest',
        Reads setting (.chain tier e e.height) opened rest result rest' →
        Reads setting (.form (.level tier)) opened (taken ++ rest) result rest')
  | .unary => ∀ rest, Reads setting (.form .unary) opened (taken ++ rest) (.ok e) rest
  | .primary => ∀ rest, Reads setting (.form .primary) opened (taken ++ rest) (.ok e) rest

/-- A level is read to its end before anything that ends its chain. -/
theorem Readable.reads_level {tier : Nat} {taken : List Token} {e : Expr}
    (h : Readable setting opened taken e (.level tier)) (hends : EndsChain tier rest) :
    Reads setting (.form (.level tier)) opened (taken ++ rest) (.ok e) rest := by
  obtain ⟨hoperand, hchain⟩ := h rest (hends.mono (Nat.le_succ _))
  rcases Nat.lt_or_ge tier BinaryOp.tiers.length with hlt | hge
  · exact hchain hlt _ _ hends.reads
  · exact hoperand hge

/-- A primary starts with no prefix operator. -/
theorem ofKind?_head_of_derives {nesting : Option Nat} {taken : List Token} {e : Expr}
    (h : Derives nesting .primary opened taken e) (rest : List Token) :
    ∀ token ∈ (taken ++ rest).head?, UnaryOp.ofKind? token.kind = none := by
  intro token htoken
  cases h <;> simp_all [UnaryOp.ofKind?]

/-- Tokens that derive an admitted tree are read. -/
theorem readable_of_derives {form : Form} {taken : List Token} {e : Expr}
    (h : Derives setting.limits.nesting form opened taken e) (hadmits : setting.limits.Admits e) :
    Readable setting opened taken e form := by
  induction h with
  | number hkind hvalue => exact fun rest => .number hkind hvalue
  | text hkind => exact fun rest => .text hkind
  | identifier hkind => exact fun rest => .identifier hkind
  | @parentheses opened left right tokens e hleft hright hallowed _ ih =>
    intro rest
    have hinner := ih hadmits (right :: rest) (endsChain_cons 0 (by rw [hright]; rfl))
      (questionAt?_eq_none_iff.mpr (by simp [hright]))
    rw [List.cons_append, List.append_assoc]
    exact .parentheses hleft (Limits.allowsInside_iff.mpr hallowed) hinner
      (Closer.skip?_eq_some_iff.mpr ⟨rfl, hright⟩)
  | primary hprimary ih =>
    exact fun rest => .noPrefix (ofKind?_head_of_derives hprimary rest) (ih hadmits rest)
  | prefixOp hop hallowed _ ih =>
    exact fun rest => .prefixOp (UnaryOp.ofKind?_eq_some_iff.mpr hop)
      (Limits.allowsInside_iff.mpr hallowed) (ih (Limits.admits_unary.mp hadmits) rest)
  | operand hlevels _ ih =>
    intro rest _
    exact ⟨fun _ => .operand (Nat.not_lt.mpr hlevels) (ih hadmits rest),
      fun hlt => absurd hlt (Nat.not_lt.mpr hlevels)⟩
  | tighter hlevels _ ih =>
    intro rest hends
    exact ⟨fun hge => absurd hlevels (Nat.not_lt.mpr hge), fun _ result rest' hchain =>
      .chained hlevels ((ih hadmits).reads_level hends) hchain⟩
  | @chain opened before after token op left right hop _ _ ihLeft ihRight =>
    intro rest hends
    have hlevels := op.tier_lt_length_tiers
    obtain ⟨hallowed, hadmitsLeft, hadmitsRight⟩ := Limits.admits_binary.mp hadmits
    refine ⟨fun hge => absurd hlevels (Nat.not_lt.mpr hge), fun _ result rest' hchain => ?_⟩
    have hbehind : EndsChain (op.tier + 1) (token :: (after ++ rest)) := by
      intro token' htoken' op' hop'
      cases htoken'
      cases BinaryOp.kind_injective (hop.symm.trans hop')
      exact Nat.lt_succ_self _
    have hheight : (Expr.binary op left right token.offset).height =
        max left.height right.height + 1 := by
      simp only [Expr.height_eq_longestPath, Expr.longestPath]
    rw [List.append_assoc, List.cons_append]
    apply (ihLeft hadmitsLeft _ hbehind).2 hlevels
    apply Reads.chainGoesOn (operatorAt?_eq_some_iff.mpr ⟨token, rfl, hop, rfl, rfl⟩)
      ((ihRight hadmitsRight).reads_level hends)
    · simpa only [Expr.height_eq_longestPath] using hallowed
    · rwa [hheight] at hchain
  | plain _ ih =>
    intro rest hends hquestion
    exact .plain ((ih hadmits).reads_level hends) hquestion
  | @choice opened first second third question colon condition whenTrue whenFalse hquestion hcolon
      hallowed _ _ _ ih ihTrue ihFalse =>
    intro rest hends hnone
    obtain ⟨hadmits, hadmitsTrue, hadmitsFalse⟩ := Limits.admits_conditional.mp hadmits
    have hbehind : EndsChain 0 (question :: (second ++ colon :: (third ++ rest))) :=
      endsChain_cons 0 (by rw [hquestion]; rfl)
    have hcondition := (ih hadmits).reads_level hbehind
    have htrue := ihTrue hadmitsTrue (colon :: (third ++ rest))
      (endsChain_cons 0 (by rw [hcolon]; rfl)) (questionAt?_eq_none_iff.mpr (by simp [hcolon]))
    have hfalse := ihFalse hadmitsFalse rest hends hnone
    simp only [List.append_assoc, List.cons_append]
    exact .choice hcondition (questionAt?_eq_some_iff.mpr ⟨question, rfl, hquestion, rfl⟩)
      (Limits.allowsInside_iff.mpr hallowed) htrue
      (Closer.skip?_eq_some_iff.mpr ⟨rfl, hcolon⟩) hfalse

/-- Some tokens are read to the end exactly if they derive an admitted tree. -/
theorem reads_conditional_iff {e : Expr} :
    Reads setting (.form .conditional) 0 tokens (.ok e) [] ↔
      Derives setting.limits.nesting .conditional 0 tokens e ∧ setting.limits.Admits e := by
  constructor
  · intro h
    obtain ⟨taken, htokens, hderives, hadmits⟩ := h.justified e rfl
    rw [List.append_nil] at htokens
    exact ⟨htokens ▸ hderives, hadmits⟩
  · rintro ⟨hderives, hadmits⟩
    have h := readable_of_derives hderives hadmits [] (by simp [EndsChain])
      (questionAt?_eq_none_iff.mpr (by simp))
    rwa [List.append_nil] at h

/-- Tokens derive one tree, whether or not nesting is bounded. -/
theorem derives_unique {nesting : Option Nat} {tokens : List Token} {e e' : Expr}
    (h : Derives nesting .conditional 0 tokens e) (h' : Derives nesting .conditional 0 tokens e') :
    e = e' := by
  have hread (tree : Expr) (hderives : Derives nesting .conditional 0 tokens tree) :
      answer ⟨⟨nesting, none⟩, 0⟩ 0 tokens (.form .conditional) = (.ok tree, []) := by
    refine (reads_conditional_iff.mpr ⟨hderives, ?_⟩).answer_eq
    intro bound hbound
    cases hbound
  have hsame := (hread e h).symm.trans (hread e' h')
  cases hsame
  rfl

end Parse

namespace TokenStream

/-- Tokens are read up to the first end of input. -/
theorem ofTokens_append_cons {tokens : List Token} {stop : Token}
    (htokens : ∀ token ∈ tokens, token.kind ≠ .endOfInput) (hstop : stop.kind = .endOfInput)
    (later : List Token) : ofTokens (tokens ++ stop :: later) = ⟨tokens, stop.offset⟩ := by
  have htake : (tokens ++ stop :: later).takeWhile (·.kind ≠ .endOfInput) = tokens := by
    rw [List.takeWhile_append_of_pos (by simpa using htokens)]
    simp [hstop]
  have hfind : (tokens ++ stop :: later).find? (·.kind = .endOfInput) = some stop := by
    rw [List.find?_append, List.find?_eq_none.mpr (by simpa using htokens)]
    simp [hstop]
  simp only [ofTokens, htake, hfind]

/-- The end of a list of tokens is known by its last one. -/
theorem ofTokens_append_end {tokens : List Token} {stop : Token}
    (htokens : ∀ token ∈ tokens, token.kind ≠ .endOfInput) (hstop : stop.kind = .endOfInput) :
    ofTokens (tokens ++ [stop]) = ⟨tokens, stop.offset⟩ :=
  ofTokens_append_cons htokens hstop []

/-- A reading yields a tree exactly if it takes all tokens. -/
theorem parse_eq_ok_iff {limits : Limits} {stream : TokenStream} {e : Expr} :
    (stream.parse limits).1 = .ok e ↔
      Parse.Reads ⟨limits, stream.stop⟩ (.form .conditional) 0 stream.tokens (.ok e) [] := by
  rw [← Parse.answer_eq_iff_reads, Parse.answer, parse]
  cases Parse.conditional ⟨limits, stream.stop⟩ 0 stream.tokens with
  | failed error rest => simp
  | done expr rest shorter => cases rest <;> simp

/-- A reading without a tree has failed, or has a tree with tokens behind it. The tokens from which
reading goes on are those left by it. -/
theorem parse_error_cases {limits : Limits} {stream : TokenStream} {error : ParseError}
    (h : (stream.parse limits).1 = .error error) :
    Parse.Reads ⟨limits, stream.stop⟩ (.form .conditional) 0 stream.tokens (.error error)
        (stream.parse limits).2.tokens ∨
      ∃ e token rest, (stream.parse limits).2.tokens = token :: rest ∧
        error = .trailingToken token.text token.offset ∧
        Parse.Reads ⟨limits, stream.stop⟩ (.form .conditional) 0 stream.tokens (.ok e)
          (token :: rest) := by
  simp only [← Parse.answer_eq_iff_reads, Parse.answer]
  rw [parse] at h ⊢
  cases houtcome : Parse.conditional ⟨limits, stream.stop⟩ 0 stream.tokens with
  | failed found rest =>
    rw [houtcome] at h
    cases h
    exact .inl rfl
  | done e rest shorter =>
    rw [houtcome] at h
    cases rest with
    | nil => cases h
    | cons token others =>
      cases h
      exact .inr ⟨e, token, others, rfl, rfl, rfl⟩

end TokenStream

/-- The parser yields exactly the trees that the grammar gives to the tokens before the end of
input, with fewer than 64 constructs open where another one is opened and no binary operator higher
than 256. The grammar gives at most one, even without a bound on nesting. -/
theorem parse_eq_ok_iff_derives {tokens : List Token} {stop : Token}
    (htokens : ∀ token ∈ tokens, token.kind ≠ .endOfInput) (hstop : stop.kind = .endOfInput) :
    (∀ e, ((TokenStream.ofTokens (tokens ++ [stop])).parse .standard).1 = .ok e ↔
      Derives (some 64) .conditional 0 tokens e ∧ e.BinariesWithin 256) ∧
    ∀ nesting e e', Derives nesting .conditional 0 tokens e →
      Derives nesting .conditional 0 tokens e' → e = e' := by
  refine ⟨fun e => ?_, fun nesting e e' => Parse.derives_unique⟩
  rw [TokenStream.ofTokens_append_end htokens hstop, TokenStream.parse_eq_ok_iff,
    Parse.reads_conditional_iff]
  simp [Limits.Admits, Limits.standard]

/-- Products come before sums, sums before comparisons, and these before a conditional; parentheses and
a prefix operator are read as operands. -/
theorem parse_mixed_operators :
    let name (text : String) (offset : Nat) : Token := ⟨.identifier, text, offset⟩
    let tokens : List Token :=
      [⟨.minus, "-", 0⟩, ⟨.leftParen, "(", 1⟩, name "a" 2, ⟨.plus, "+", 4⟩, ⟨.number, "1", 6⟩,
        ⟨.star, "*", 8⟩, ⟨.number, "2", 10⟩, ⟨.rightParen, ")", 11⟩, ⟨.less, "<", 13⟩,
        ⟨.string, "'b'", 15⟩, ⟨.question, "?", 19⟩, name "c" 21, ⟨.colon, ":", 23⟩, name "d" 25]
    let sum : Expr := .binary (.arithmetic .add) (.identifier "a" 2)
      (.binary (.arithmetic .multiply) (.number (.integer 1) 6) (.number (.integer 2) 10) 8) 4
    ((TokenStream.ofTokens (tokens ++ [⟨.endOfInput, "", 26⟩])).parse .standard).1 =
      .ok (.conditional
        (.binary (.comparison .less) (.unary .minus sum 0) (.text "b" 15) 13)
        (.identifier "c" 21) (.identifier "d" 25)) := by
  intro name tokens sum
  have hroom {opened : Nat} (hopened : opened < 64) : ∀ bound ∈ some 64, opened < bound :=
    fun _ hbound => Option.some.inj hbound ▸ hopened
  have leaf (text : String) (pos opened : Nat) :
      Derives (some 64) .unary opened [name text pos] (.identifier text pos) :=
    .primary (.identifier rfl)
  have one : Derives (some 64) .unary 2 [⟨.number, "1", 6⟩] (.number (.integer 1) 6) :=
    .primary (.number rfl (by decide))
  have two : Derives (some 64) .unary 2 [⟨.number, "2", 10⟩] (.number (.integer 2) 10) :=
    .primary (.number rfl (by decide))
  have product := @Derives.chain (some 64) 2 _ _ ⟨.star, "*", 8⟩ (.arithmetic .multiply) _ _ rfl
    (one.level 5) (two.level 6)
  have total := @Derives.chain (some 64) 2 _ _ ⟨.plus, "+", 4⟩ (.arithmetic .add) _ _ rfl
    ((leaf "a" 2 2).level 4) product
  have inner : Derives (some 64) .primary 1 _ sum :=
    @Derives.parentheses _ _ ⟨.leftParen, "(", 1⟩ ⟨.rightParen, ")", 11⟩ _ _ rfl rfl
      (hroom (by decide)) (.plain (total.level_of_le (by decide)))
  have negated : Derives (some 64) .unary 0 _ (.unary .minus sum 0) :=
    @Derives.prefixOp _ _ ⟨.minus, "-", 0⟩ .minus _ _ rfl (hroom (by decide)) (.primary inner)
  have quoted : Derives (some 64) .unary 0 [⟨.string, "'b'", 15⟩] (.text "b" 15) :=
    .primary (.text rfl)
  have compared := @Derives.chain (some 64) 0 _ _ ⟨.less, "<", 13⟩ (.comparison .less) _ _ rfl
    (negated.level 3) (quoted.level 4)
  have whole := @Derives.choice (some 64) 0 _ _ _ ⟨.question, "?", 19⟩ ⟨.colon, ":", 23⟩ _ _ _ rfl rfl
    (hroom (by decide)) (compared.level_of_le (by decide)) (.plain ((leaf "c" 21 1).level 0))
    (.plain ((leaf "d" 25 1).level 0))
  refine ((parse_eq_ok_iff_derives (by decide) rfl).1 _).mpr ⟨whole, ?_⟩
  have hleaf {e : Expr} (hchildren : e.children = []) : e.BinariesWithin 256 :=
    Expr.binariesWithin_of_children_eq_nil hchildren
  have hname (text : String) (pos : Nat) := hleaf (rfl : (Expr.identifier text pos).children = [])
  have hnumber (value : Number) (pos : Nat) := hleaf (rfl : (Expr.number value pos).children = [])
  have htext (value : String) (pos : Nat) := hleaf (rfl : (Expr.text value pos).children = [])
  simp [sum, Expr.binariesWithin_conditional, Expr.binariesWithin_binary, Expr.binariesWithin_unary,
    Expr.longestPath, hname, hnumber, htext]

end ScalarExpr

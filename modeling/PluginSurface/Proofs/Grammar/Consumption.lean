import PluginSurface.Proofs.Grammar.Accounting

/-!
# No token is dropped without an error

A parser that fails has recorded an error. So a run of the items that records
none never goes on after a failure: every token before the end of the file is
taken by exactly one item or is a semicolon between items.
-/

namespace PluginSurface.Grammar

variable {Result Next : Type}

/-- A parser that records an error whenever it fails. -/
def Signals (parser : Parse Result) : Prop :=
  ∀ state, (parser state).1 = none → state.errors < (parser state).2.errors

theorem Accounts.signals {parser : Parse Result} [inner : Accounts parser] :
    Signals parser :=
  fun state => (inner.accounted state).signals

/-- The tokens before the first end of the file. -/
def beforeEnd (tokens : List Token) : List Token :=
  tokens.takeWhile fun token => !token.kind.isEndOfFile

/-- Items that are read one after another up to the end of the file. Each takes
at least one of the tokens and records no error; every other token is a
semicolon. -/
inductive ReadsItems : State → List Token → List Item → State → Prop where
  | done {state : State} (atEnd : state.current.kind = .endOfFile) :
      ReadsItems state [] [] state
  | semicolon {state final : State} {token : Token} {left tokens : List Token}
      {items : List Item} (front : state.rest = token :: left)
      (isSemicolon : token.kind = .symbol .semicolon)
      (further : ReadsItems state.advance tokens items final) :
      ReadsItems state (token :: tokens) items final
  | item {state next final : State} {first : Item}
      {taken tokens : List Token} {items : List Item}
      (parsed : item state = (some first, next))
      (clean : next.errors = state.errors)
      (takes : state.rest = taken ++ next.rest) (nonempty : taken ≠ [])
      (further : ReadsItems next tokens items final) :
      ReadsItems state (taken ++ tokens) (first :: items) final

/-! ## What is left -/

/-- Somewhere among the tokens that are left is the end of the file. -/
def State.HoldsEnd (state : State) : Prop :=
  ∃ token ∈ state.rest, token.kind = .endOfFile

theorem Consumes.length_le {tokens left : List Token}
    (consumes : Consumes tokens left) : left.length ≤ tokens.length := by
  induction consumes with
  | refl => exact Nat.le_refl _
  | take _ _ inductionHypothesis =>
      exact Nat.le_succ_of_le inductionHypothesis
  | split _ _ _ inductionHypothesis => exact inductionHypothesis

theorem Consumes.holdsEnd {tokens left : List Token}
    (consumes : Consumes tokens left)
    (holdsEnd : ∃ token ∈ tokens, token.kind = .endOfFile) :
    ∃ token ∈ left, token.kind = .endOfFile := by
  induction consumes with
  | refl => exact holdsEnd
  | take notEnd _ inductionHypothesis =>
      obtain ⟨found, member, isEnd⟩ := holdsEnd
      rcases List.mem_cons.mp member with rfl | member
      · exact absurd isEnd notEnd
      · exact inductionHypothesis ⟨found, member, isEnd⟩
  | split isSymbol _ _ inductionHypothesis =>
      obtain ⟨found, member, isEnd⟩ := holdsEnd
      rcases List.mem_cons.mp member with rfl | member
      · rw [isSymbol] at isEnd
        cases isEnd
      · exact inductionHypothesis ⟨found, List.mem_cons_of_mem _ member, isEnd⟩

/-- The token at the front is what is left of a longer symbol. -/
def StartsSplit (tokens : List Token) : Prop :=
  ∃ mark half span rest, afterAngle? mark = some half ∧
    tokens = ⟨.symbol half, span⟩ :: rest

/-- Whole tokens were taken, unless a part of one is at the front. -/
theorem Consumes.whole {tokens left : List Token}
    (consumes : Consumes tokens left) :
    (∃ taken, tokens = taken ++ left ∧
      ∀ token ∈ taken, token.kind ≠ .endOfFile) ∨ StartsSplit left := by
  induction consumes with
  | refl => exact .inl ⟨[], rfl, nofun⟩
  | @take token rest left notEnd _ inductionHypothesis =>
      rcases inductionHypothesis with ⟨taken, rfl, noneEnds⟩ | starts
      · exact .inl ⟨token :: taken, rfl,
          List.forall_mem_cons.mpr ⟨notEnd, noneEnds⟩⟩
      · exact .inr starts
  | @split token mark half span rest left found splits _ inductionHypothesis =>
      rcases inductionHypothesis with ⟨taken, same, noneEnds⟩ | starts
      · cases taken with
        | nil => exact .inr ⟨mark, half, span, rest, splits, same.symm⟩
        | cons first taken =>
            cases same
            have notEnd : token.kind ≠ .endOfFile := by simp [found]
            exact .inl ⟨token :: taken, rfl, List.forall_mem_cons.mpr
              ⟨notEnd, (List.forall_mem_cons.mp noneEnds).2⟩⟩
      · exact .inr starts

theorem beforeEnd_append {taken left : List Token}
    (noneEnds : ∀ token ∈ taken, token.kind ≠ .endOfFile) :
    beforeEnd (taken ++ left) = taken ++ beforeEnd left := by
  refine List.takeWhile_append_of_pos fun token member => ?_
  have notEnd : ¬token.kind.isEndOfFile = true := fun isEnd =>
    noneEnds token member (isEndOfFile_iff.mp isEnd)
  simpa using notEnd

/-! ## Progress -/

/-- A parser that takes a token when it succeeds without an error. -/
def Progresses (parser : Parse Result) : Prop :=
  ∀ state result later, state.HoldsEnd → parser state = (some result, later) →
    later.errors = state.errors → later.rest.length < state.rest.length

theorem errors_le {parser : Parse Result} [inner : Accounts parser]
    {state later : State} {result : Option Result}
    (parsed : parser state = (result, later)) : state.errors ≤ later.errors := by
  have known : Accounted state (parser state) := inner.accounted state
  rw [parsed] at known
  exact known.grows

/-- Both parts of a parser that succeeds without an error do so. -/
theorem bind_of_clean {parser : Parse Result} {next : Result → Parse Next}
    [first : Accounts parser] [second : ∀ result, Accounts (next result)]
    {state final : State} {result : Next}
    (parsed : (parser >>= next) state = (some result, final))
    (clean : final.errors = state.errors) :
    ∃ found later, parser state = (some found, later) ∧
      later.errors = state.errors ∧
      next found later = (some result, final) := by
  rcases ran : parser state with ⟨_ | found, later⟩
  · simp only [Bind.bind, ran] at parsed
    cases congrArg Prod.fst parsed
  · simp only [Bind.bind, ran] at parsed
    have same : later.errors = state.errors :=
      Nat.le_antisymm (clean ▸ errors_le parsed) (errors_le ran)
    exact ⟨found, later, rfl, same, parsed⟩

theorem State.HoldsEnd.after {parser : Parse Result} [inner : Accounts parser]
    {state later : State} {result : Result} (holdsEnd : state.HoldsEnd)
    (parsed : parser state = (some result, later))
    (clean : later.errors = state.errors) : later.HoldsEnd := by
  have known : Accounted state (parser state) := inner.accounted state
  rw [parsed] at known
  exact (known.consumes clean).holdsEnd holdsEnd

theorem length_le_of_clean {parser : Parse Result} [inner : Accounts parser]
    {state later : State} {result : Result}
    (parsed : parser state = (some result, later))
    (clean : later.errors = state.errors) :
    later.rest.length ≤ state.rest.length := by
  have known : Accounted state (parser state) := inner.accounted state
  rw [parsed] at known
  exact (known.consumes clean).length_le

namespace Progresses

theorem failHere {fault : TokenKind → SyntaxFault} :
    Progresses (Grammar.failHere fault : Parse Result) :=
  fun _ _ _ _ parsed => nomatch congrArg Prod.fst parsed

theorem ite {condition : Prop} [Decidable condition]
    {whenTrue whenFalse : Parse Result} (left : Progresses whenTrue)
    (right : Progresses whenFalse) :
    Progresses (if condition then whenTrue else whenFalse) := by
  split
  · exact left
  · exact right

theorem bind {parser : Parse Result} {next : Result → Parse Next}
    [Accounts parser] [∀ result, Accounts (next result)]
    (first : Progresses parser) : Progresses (parser >>= next) := by
  intro state result final holdsEnd parsed clean
  obtain ⟨found, later, ran, same, further⟩ := bind_of_clean parsed clean
  exact Nat.lt_of_le_of_lt (length_le_of_clean further (clean.trans same.symm))
    (first state found later holdsEnd ran same)

theorem map {parser : Parse Result} {convert : Result → Next}
    (inner : Progresses parser) :
    Progresses (parser >>= fun result => pure (convert result)) := by
  intro state result final holdsEnd parsed clean
  rcases ran : parser state with ⟨_ | found, later⟩
  · simp only [Bind.bind, ran] at parsed
    cases congrArg Prod.fst parsed
  · simp only [Bind.bind, ran] at parsed
    cases congrArg Prod.snd parsed
    exact inner state found _ holdsEnd ran clean

/-- It is enough if the second part takes a token. -/
theorem after {parser : Parse Result} {next : Result → Parse Next}
    [Accounts parser] [∀ result, Accounts (next result)]
    (second : ∀ result, Progresses (next result)) :
    Progresses (parser >>= next) := by
  intro state result final holdsEnd parsed clean
  obtain ⟨found, later, ran, same, further⟩ := bind_of_clean parsed clean
  exact Nat.lt_of_lt_of_le
    (second found later result final (holdsEnd.after ran same) further
      (clean.trans same.symm))
    (length_le_of_clean ran same)

theorem inspect {view : State → Result} {next : Result → Parse Next}
    (second : ∀ result, Progresses (next result)) :
    Progresses (Parse.inspect view >>= next) :=
  fun state => second (view state) state

theorem advance : Progresses Grammar.advance := by
  rintro state _ _ ⟨token, member, -⟩ ⟨⟩ -
  unfold State.advance
  split
  · next empty =>
      rw [empty] at member
      cases member
  · next front => simp [front]

theorem advanceThen {next : Unit → Parse Next}
    [second : ∀ result, Accounts (next result)] :
    Progresses (Grammar.advance >>= next) := by
  intro state result final holdsEnd parsed clean
  have same : final.errors = state.advance.errors :=
    clean.trans state.errors_advance.symm
  have further : final.rest.length ≤ state.advance.rest.length :=
    @length_le_of_clean _ _ (second ()) _ _ _ parsed same
  exact Nat.lt_of_le_of_lt further
    (advance state () state.advance holdsEnd rfl state.errors_advance)

theorem expectSymbol {mark : Symbol} : Progresses (Grammar.expectSymbol mark) :=
  .inspect fun _ => .ite advance failHere

theorem expectKeyword {word : Keyword} :
    Progresses (Grammar.expectKeyword word) :=
  .inspect fun _ => .ite advance failHere

end Progresses

-- A parser with many steps takes large instances.
set_option synthInstance.maxSize 4096

theorem progresses_functionDecl {decorators : List Decorator}
    {isExported isDeclared : Bool} {start : Span} :
    Progresses (functionDecl decorators isExported isDeclared start) := by
  unfold functionDecl
  exact .bind .expectKeyword

theorem progresses_classDecl {decorators : List Decorator} {isExported : Bool}
    {start : Span} : Progresses (classDecl decorators isExported start) := by
  unfold classDecl
  dsimp only
  exact .bind .expectKeyword

theorem progresses_importDecl {start : Span} :
    Progresses (importDecl start) := by
  unfold importDecl
  exact .bind .expectKeyword

theorem progresses_exportDecl {start : Span} :
    Progresses (exportDecl start) := by
  unfold exportDecl
  dsimp only
  exact .bind .expectSymbol

theorem progresses_variableDecl {kind : BindingKind}
    {decorators : List Decorator} {isExported : Bool} {start : Span} :
    Progresses (variableDecl kind decorators isExported start) :=
  .advanceThen

theorem progresses_declarationItem {decorators : List Decorator}
    {isExported isDeclared : Bool} {start : Span} :
    Progresses (declarationItem decorators isExported isDeclared start) := by
  refine .inspect fun kind => ?_
  split
  · exact progresses_functionDecl.map
  · exact progresses_classDecl.map
  · exact progresses_variableDecl.map
  · exact progresses_variableDecl.map
  · exact progresses_variableDecl.map
  · exact .ite .failHere progresses_importDecl.map
  · exact .ite .failHere .failHere
  · exact .ite .failHere .failHere
  · exact .failHere

theorem progresses_item : Progresses item := by
  refine .inspect fun start => .after fun decorators =>
    .after fun isExported => ?_
  refine .inspect fun isOpen => .ite progresses_exportDecl.map ?_
  exact .after fun isDeclared => progresses_declarationItem

/-! ## Items in turn -/

theorem StartsSplit.current {state : State} (starts : StartsSplit state.rest) :
    state.current.kind = .symbol .greater ∨
      state.current.kind = .symbol .doubleGreater ∨
      state.current.kind = .symbol .equal := by
  obtain ⟨mark, half, span, rest, splits, front⟩ := starts
  have current : state.current.kind = .symbol half := by
    rw [State.current, front]
    rfl
  rw [current]
  cases mark <;> cases splits <;> simp

/-- No item starts with what is left of a longer symbol. -/
theorem item_of_startsSplit {state : State} (starts : StartsSplit state.rest) :
    (item state).1 = none := by
  rcases starts.current with current | current | current <;>
    simp [item, decorators, decoratorsAt, eatSymbol, eatKeyword, atSymbol,
      atKeyword, currentSpan, currentKind, stepBound, Parse.inspect, Bind.bind,
      pure, current, TokenKind.isSymbol, TokenKind.isKeyword,
      declarationItem, failHere]

theorem eatSymbol_eq (mark : Symbol) (state : State) :
    eatSymbol mark state =
      if state.current.kind.isSymbol mark then (some true, state.advance)
      else (some false, state) := by
  change (if state.current.kind.isSymbol mark then _ else _ : Parse Bool)
    state = _
  split <;> rfl

/-- One step of the items, by what stands at the front. -/
theorem itemsToEnd_succ (bound : Nat) (state : State) :
    itemsToEnd (bound + 1) state =
      if state.current.kind.isEndOfFile || state.diagnostics.isFull then
        (some [], state)
      else if state.current.kind.isSymbol .semicolon then
        itemsToEnd bound state.advance
      else
        match item state with
        | (some first, next) =>
            (itemsToEnd bound >>= fun rest => pure (first :: rest)) next
        | (none, next) => itemsToEnd bound (skipItem next).2 := by
  change (if state.current.kind.isEndOfFile || state.diagnostics.isFull then
    _ else _ : Parse (List Item)) state = _
  split
  · rfl
  · by_cases isSemicolon : state.current.kind.isSymbol .semicolon
    · simp [Bind.bind, eatSymbol_eq, isSemicolon]
    · rw [if_neg isSemicolon]
      rcases parsed : item state with ⟨_ | first, next⟩ <;>
        simp [Bind.bind, eatSymbol_eq, isSemicolon, Parse.attempt, parsed,
          skipItem, skipBy]

theorem isFull_of_clean {state : State} (clean : state.errors = 0) :
    state.diagnostics.isFull = false := by
  rw [State.errors] at clean
  simp [Diagnostics.isFull, clean, Diagnostics.storedLimit]

/-- An item that is read without an error takes whole tokens, unless it ends
within one. -/
theorem item_takes {state next : State} {first : Item}
    (ran : item state = (some first, next))
    (clean : next.errors = state.errors) (holdsEnd : state.HoldsEnd) :
    (∃ taken, taken ≠ [] ∧ state.rest = taken ++ next.rest ∧
      ∀ token ∈ taken, token.kind ≠ .endOfFile) ∨ StartsSplit next.rest := by
  have known : Accounted state (item state) := Accounts.accounted state
  have shorter := progresses_item state first next holdsEnd ran clean
  rw [ran] at known
  rcases (known.consumes clean).whole with ⟨taken, same, noneEnds⟩ | starts
  · refine .inl ⟨taken, ?_, same, noneEnds⟩
    rintro rfl
    exact absurd (congrArg List.length same) (Nat.ne_of_gt shorter)
  · exact .inr starts

/-- What a step of the items can do if no error is recorded: the items end, a
semicolon is passed over, or an item is read. -/
theorem itemsToEnd_cases {bound : Nat} {state final : State}
    {items : List Item}
    (parsed : itemsToEnd (bound + 1) state = (some items, final))
    (clean : final.errors = 0) :
    (state.current.kind = .endOfFile ∧ items = [] ∧ final = state) ∨
    (state.current.kind = .symbol .semicolon ∧
      itemsToEnd bound state.advance = (some items, final)) ∨
    ∃ first next rest, item state = (some first, next) ∧ next.errors = 0 ∧
      itemsToEnd bound next = (some rest, final) ∧ items = first :: rest := by
  have stateClean : state.errors = 0 :=
    Nat.eq_zero_of_le_zero (clean ▸ errors_le parsed)
  rw [itemsToEnd_succ, isFull_of_clean stateClean, Bool.or_false] at parsed
  split at parsed
  · next atEnd =>
      cases parsed
      exact .inl ⟨isEndOfFile_iff.mp atEnd, rfl, rfl⟩
  split at parsed
  · next isSemicolon => exact .inr (.inl ⟨isSymbol_iff.mp isSemicolon, parsed⟩)
  split at parsed
  · next first next ran =>
      have nextClean : next.errors = 0 :=
        Nat.eq_zero_of_le_zero (clean ▸ errors_le parsed)
      obtain ⟨rest, later, ranRest, -, gives⟩ :=
        bind_of_clean parsed (clean.trans nextClean.symm)
      cases gives
      exact .inr (.inr ⟨first, next, rest, ran, nextClean, ranRest, rfl⟩)
  · next next ran =>
      have signals : state.errors < (item state).2.errors :=
        Accounts.signals state (by rw [ran])
      rw [ran] at signals
      have keeps : (skipItem next).2.errors ≤ final.errors := errors_le parsed
      exact absurd (Nat.lt_of_lt_of_le signals keeps)
        (clean ▸ Nat.not_lt_zero _)

/-- What is left of a longer symbol is found wrong. -/
theorem itemsToEnd_of_startsSplit {bound : Nat} {state final : State}
    {items : List Item} (starts : StartsSplit state.rest)
    (parsed : itemsToEnd (bound + 1) state = (some items, final)) :
    0 < final.errors := by
  refine Nat.pos_of_ne_zero fun clean => ?_
  rcases itemsToEnd_cases parsed clean with ⟨atEnd, -⟩ | ⟨isSemicolon, -⟩ |
    ⟨first, next, rest, ran, -⟩
  · rcases starts.current with current | current | current <;>
      cases current.symm.trans atEnd
  · rcases starts.current with current | current | current <;>
      cases current.symm.trans isSemicolon
  · have fails := item_of_startsSplit starts
    rw [ran] at fails
    cases fails

theorem State.HoldsEnd.front {state : State} (holdsEnd : state.HoldsEnd) :
    ∃ left, state.rest = state.current :: left := by
  obtain ⟨token, member, -⟩ := holdsEnd
  cases front : state.rest with
  | nil =>
      rw [front] at member
      cases member
  | cons first left => exact ⟨left, by rw [State.current, front]; rfl⟩

/-- A run of the items that records no error reads them one after another. -/
theorem itemsToEnd_reads {bound : Nat} {state final : State}
    {items : List Item} (parsed : itemsToEnd bound state = (some items, final))
    (clean : final.errors = 0) (holdsEnd : state.HoldsEnd)
    (enough : state.rest.length < bound) :
    ReadsItems state (beforeEnd state.rest) items final := by
  induction bound generalizing state items with
  | zero => exact absurd enough (Nat.not_lt_zero _)
  | succ bound inductionHypothesis =>
      obtain ⟨left, front⟩ := holdsEnd.front
      have stateClean : state.errors = 0 :=
        Nat.eq_zero_of_le_zero (clean ▸ errors_le parsed)
      rcases itemsToEnd_cases parsed clean with ⟨atEnd, rfl, rfl⟩ |
        ⟨isSemicolon, further⟩ | ⟨first, next, rest, ran, nextClean, ranRest, rfl⟩
      · have nothing : beforeEnd final.rest = [] := by
          rw [front, beforeEnd, List.takeWhile_cons, atEnd]
          rfl
        rw [nothing]
        exact .done atEnd
      · have advanced : state.advance.rest = left := by
          rw [State.advance, front]
        have eats : eatSymbol .semicolon state = (some true, state.advance) := by
          rw [eatSymbol_eq, isSymbol_iff.mpr isSemicolon, if_pos rfl]
        rw [front] at enough
        have reads := inductionHypothesis further
          (holdsEnd.after eats state.errors_advance)
          (advanced ▸ Nat.lt_of_succ_lt_succ enough)
        rw [advanced] at reads
        rw [front, ← List.singleton_append,
          beforeEnd_append (by simp [isSemicolon])]
        exact .semicolon front isSemicolon reads
      · have same : next.errors = state.errors :=
          nextClean.trans stateClean.symm
        have fewer : next.rest.length < bound :=
          Nat.lt_of_lt_of_le
            (progresses_item state first next holdsEnd ran same)
            (Nat.le_of_lt_succ enough)
        rcases item_takes ran same holdsEnd with
          ⟨taken, nonempty, takes, noneEnds⟩ | starts
        · have reads := inductionHypothesis ranRest (holdsEnd.after ran same)
            fewer
          rw [takes, beforeEnd_append noneEnds]
          exact .item ran same takes nonempty reads
        · obtain ⟨bound, rfl⟩ := Nat.exists_eq_succ_of_ne_zero
            (Nat.ne_of_gt (Nat.zero_lt_of_lt fewer))
          exact absurd clean
            (Nat.ne_of_gt (itemsToEnd_of_startsSplit starts ranRest))

/-! ## Recovery -/

/-- A parser that does what another one does, unless it records an error. -/
def AgreesUnlessFaulty (parser strict : Parse Result) : Prop :=
  ∀ state, (parser state).2.errors = state.errors →
    parser state = strict state

/-- Statements up to a closing brace, none of which may fail. -/
def statementsInTurn (statement : Parse StmtId) : Nat → Parse (List StmtId)
  | 0 => pure []
  | bound + 1 => do
      if (← atSymbol .closeBrace) || (← atEnd) || (← isFull) then return []
      let first ← statement
      let rest ← statementsInTurn statement bound
      return first :: rest

/-- Members up to a closing brace, none of which may fail. -/
def membersInTurn : Nat → Parse (List Member)
  | 0 => pure []
  | bound + 1 => do
      if (← atSymbol .closeBrace) || (← atEnd) then return []
      else if ← eatSymbol .semicolon then membersInTurn bound
      else if ← isFull then return []
      else
        let first ← classMember
        let rest ← membersInTurn bound
        return first :: rest

/-- Items up to the end of the tokens, none of which may fail. -/
def itemsInTurn : Nat → Parse (List Item)
  | 0 => pure []
  | bound + 1 => do
      if (← atEnd) || (← isFull) then return []
      else if ← eatSymbol .semicolon then itemsInTurn bound
      else
        let first ← item
        let rest ← itemsInTurn bound
        return first :: rest

namespace AgreesUnlessFaulty

theorem refl {parser : Parse Result} : AgreesUnlessFaulty parser parser :=
  fun _ _ => rfl

theorem ite {condition : Prop} [Decidable condition]
    {whenTrue whenFalse strictTrue strictFalse : Parse Result}
    (left : AgreesUnlessFaulty whenTrue strictTrue)
    (right : AgreesUnlessFaulty whenFalse strictFalse) :
    AgreesUnlessFaulty (if condition then whenTrue else whenFalse)
      (if condition then strictTrue else strictFalse) := by
  split
  · exact left
  · exact right

theorem inspect {view : State → Result} {next strict : Result → Parse Next}
    (second : ∀ result, AgreesUnlessFaulty (next result) (strict result)) :
    AgreesUnlessFaulty (Parse.inspect view >>= next)
      (Parse.inspect view >>= strict) :=
  fun state => second (view state) state

/-- The other parser may do without a look at the state. -/
theorem skipInspect {view : State → Result} {next : Result → Parse Next}
    {strict : Parse Next}
    (second : ∀ result, AgreesUnlessFaulty (next result) strict) :
    AgreesUnlessFaulty (Parse.inspect view >>= next) strict :=
  fun state => second (view state) state

/-- The first part records no errors. -/
theorem afterQuiet {parser : Parse Result}
    {next strict : Result → Parse Next}
    (quiet : ∀ state, (parser state).2.errors = state.errors)
    (second : ∀ result, AgreesUnlessFaulty (next result) (strict result)) :
    AgreesUnlessFaulty (parser >>= next) (parser >>= strict) := by
  intro state clean
  have same := quiet state
  rcases ran : parser state with ⟨_ | result, middle⟩
  · simp only [Bind.bind, ran]
  · simp only [Bind.bind, ran] at clean same ⊢
    exact second result middle (clean.trans same.symm)

theorem map {parser strict : Parse Result} {convert : Result → Next}
    (inner : AgreesUnlessFaulty parser strict) :
    AgreesUnlessFaulty (parser >>= fun result => pure (convert result))
      (strict >>= fun result => pure (convert result)) := by
  intro state clean
  have same : (parser state).2.errors = state.errors := by
    rcases ran : parser state with ⟨_ | result, middle⟩ <;>
      simpa only [Bind.bind, ran, pure] using clean
  simp only [Bind.bind, inner state same]

/-- Where nothing fails, nothing is recovered from. -/
theorem attempt {parser : Parse Result} {next : Option Result → Parse Next}
    {further : Result → Parse Next} [inner : Accounts parser]
    [success : ∀ result, Accounts (next (some result))]
    (agrees : ∀ result,
      AgreesUnlessFaulty (next (some result)) (further result))
    (failure : ∀ later, later.errors ≤ (next none later).2.errors) :
    AgreesUnlessFaulty (Parse.attempt parser >>= next) (parser >>= further) := by
  intro state clean
  have signals := inner.signals state
  rcases ran : parser state with ⟨_ | result, middle⟩
  · rw [ran] at signals
    have faulty := Nat.lt_of_lt_of_le (signals rfl) (failure middle)
    simp only [Bind.bind, Parse.attempt, ran] at clean
    exact absurd clean (Nat.ne_of_gt faulty)
  · simp only [Bind.bind, Parse.attempt, ran] at clean ⊢
    have same : middle.errors = state.errors :=
      Nat.le_antisymm (clean ▸ ((success result).accounted middle).grows)
        (errors_le ran)
    exact agrees result middle (clean.trans same.symm)

end AgreesUnlessFaulty

theorem errors_eatSymbol (mark : Symbol) (state : State) :
    (eatSymbol mark state).2.errors = state.errors := by
  rw [eatSymbol_eq]
  split
  · exact state.errors_advance
  · rfl

theorem agrees_statementsInTurn {statement : Parse StmtId}
    [Accounts statement] (bound : Nat) :
    AgreesUnlessFaulty (statementsUntilBrace statement bound)
      (statementsInTurn statement bound) := by
  induction bound with
  | zero => exact .refl
  | succ bound inductionHypothesis =>
      refine .inspect fun isClosed => .inspect fun isEnd =>
        .inspect fun isFull => .ite .refl ?_
      exact .skipInspect fun start =>
        .attempt (fun first => inductionHypothesis.map)
          (errors_le_recoverStatement start)

theorem agrees_membersInTurn (bound : Nat) :
    AgreesUnlessFaulty (membersUntilBrace bound) (membersInTurn bound) := by
  induction bound with
  | zero => exact .refl
  | succ bound inductionHypothesis =>
      refine .inspect fun isClosed => .inspect fun isEnd => .ite .refl ?_
      refine .afterQuiet (errors_eatSymbol _) fun isSemicolon =>
        .ite inductionHypothesis ?_
      refine .inspect fun isFull => .ite .refl ?_
      exact .attempt (fun first => inductionHypothesis.map)
        (errors_le_skipBy _)

theorem agrees_itemsInTurn (bound : Nat) :
    AgreesUnlessFaulty (itemsToEnd bound) (itemsInTurn bound) := by
  induction bound with
  | zero => exact .refl
  | succ bound inductionHypothesis =>
      refine .inspect fun isEnd => .inspect fun isFull => .ite .refl ?_
      refine .afterQuiet (errors_eatSymbol _) fun isSemicolon =>
        .ite inductionHypothesis ?_
      exact .attempt (fun first => inductionHypothesis.map)
        (errors_le_skipBy _)

/-! ## Programs -/

theorem holdsEnd_initialState (source : SourceText) (tokens : List Token) :
    (initialState source tokens).HoldsEnd := by
  change ∃ token ∈ completed tokens, token.kind = .endOfFile
  unfold completed
  split
  · next last found =>
      split
      · next isEnd =>
          exact ⟨last, List.mem_of_getLast? found, isEndOfFile_iff.mp isEnd⟩
      · exact ⟨finishOf tokens, by simp, kind_finishOf tokens⟩
  · exact ⟨finishOf tokens, by simp, kind_finishOf tokens⟩

theorem beforeEnd_concat {tokens : List Token} {last : Token}
    (isEnd : last.kind = .endOfFile) :
    beforeEnd (tokens ++ [last]) = beforeEnd tokens := by
  have endsHere : (!last.kind.isEndOfFile) = false := by rw [isEnd]; rfl
  rw [beforeEnd, List.takeWhile_append]
  split
  · next whole =>
      rw [List.takeWhile_cons, endsHere, beforeEnd,
        (List.takeWhile_prefix _).eq_of_length whole]
      exact List.append_nil _
  · rfl

theorem beforeEnd_completed (tokens : List Token) :
    beforeEnd (completed tokens) = beforeEnd tokens := by
  unfold completed
  split
  · split
    · rfl
    · exact beforeEnd_concat (kind_finishOf tokens)
  · next none =>
      rw [List.getLast?_eq_none_iff.mp none]
      exact @beforeEnd_concat [] _ (kind_finishOf [])

theorem items_reads {state final : State} {read : List Item} {span : Span}
    (parsed : items state = (some (read, span), final))
    (clean : final.errors = 0) (holdsEnd : state.HoldsEnd) :
    ReadsItems state (beforeEnd state.rest) read final := by
  rcases ran : itemsToEnd (state.rest.length + 1) state with ⟨_ | found, later⟩
  · simp only [items, currentSpan, stepBound, Parse.inspect, Bind.bind, ran]
      at parsed
    cases congrArg Prod.fst parsed
  · simp only [items, currentSpan, stepBound, Parse.inspect, Bind.bind, ran]
      at parsed
    cases parsed
    exact itemsToEnd_reads ran clean holdsEnd (Nat.lt_succ_self _)

/-- There is a program exactly if no error was recorded. -/
theorem parse_outcome (source : SourceText) (kind : SourceKind)
    (tokens : List Token) :
    let state := initialState source tokens
    let final := (items state).2
    match parse source kind tokens with
    | .ok program => final.errors = 0 ∧
        ReadsItems state (beforeEnd tokens) program.items final
    | .error diagnostics =>
        0 < final.errors ∧ diagnostics = final.diagnostics := by
  have signals : Signals items := Accounts.signals
  replace signals := signals (initialState source tokens)
  unfold parse
  dsimp only
  rcases ran : items (initialState source tokens) with
    ⟨_ | ⟨read, span⟩, final⟩
  · rw [ran] at signals
    have faulty : 0 < final.errors := signals rfl
    dsimp only
    cases final.diagnostics.hasErrors <;> exact ⟨faulty, rfl⟩
  · dsimp only
    rcases has : final.diagnostics.hasErrors with _ | _
    · have clean : final.errors = 0 :=
        Nat.eq_zero_of_not_pos (of_decide_eq_false has)
      have reads := items_reads ran clean (holdsEnd_initialState source tokens)
      change ReadsItems _ (beforeEnd (completed tokens)) read final at reads
      rw [beforeEnd_completed] at reads
      exact ⟨clean, reads⟩
    · exact ⟨of_decide_eq_true has, rfl⟩

/-- Whatever the tokens and the state, no item, statement, member, expression or
type fails without an error, and no loop goes on after a failure unless there is
an error. So there is a program exactly if there is no error, and then every
token before the end of the file belongs to one item or is a semicolon. -/
theorem parse_drops_nothing :
    Signals item ∧ (∀ bound, Signals (statementAt bound)) ∧
    Signals classMember ∧ (∀ bound goal, Signals (goalAt bound goal)) ∧
    Signals expression ∧ (∀ bound, Signals (typeAt bound)) ∧
    Signals typeExpr ∧
    (∀ depth bound, AgreesUnlessFaulty
      (statementsUntilBrace (statementAt depth) bound)
      (statementsInTurn (statementAt depth) bound)) ∧
    (∀ bound, AgreesUnlessFaulty (membersUntilBrace bound)
      (membersInTurn bound)) ∧
    (∀ bound, AgreesUnlessFaulty (itemsToEnd bound) (itemsInTurn bound)) ∧
    ∀ source kind tokens,
      let state := initialState source tokens
      let final := (items state).2
      match parse source kind tokens with
      | .ok program => final.errors = 0 ∧
          ReadsItems state (beforeEnd tokens) program.items final
      | .error diagnostics =>
          0 < final.errors ∧ diagnostics = final.diagnostics :=
  ⟨Accounts.signals, fun _ => Accounts.signals, Accounts.signals,
    fun _ _ => Accounts.signals, Accounts.signals, fun _ => Accounts.signals,
    Accounts.signals, fun _ => agrees_statementsInTurn, agrees_membersInTurn,
    agrees_itemsInTurn, parse_outcome⟩

end PluginSurface.Grammar

import TwinSchema.Proofs.Source.Breakdown
import TwinSchema.Proofs.Source.Entry

/-!
# Links of a chain

The array links of a chain cut its other links into runs. Each run belongs to
one node: the first to the node that the chain begins with, every other one to
the array made in front of it. A link that is not known changes nothing, wherever
it stands in a chain.
-/

namespace TwinSchema.Source

open Text

/-- The description that a link gives, if its argument reads as a text. -/
def described? (link : Link) : Option String :=
  if link.name = "describe" ∨ link.name = "description" then
    (readDescription link.arguments).toOption.join
  else none

/-- Modifiers under a run of links. The order counts for descriptions only, of
which the last one that can be read stands. -/
def modifiedBy (links : List Link) (modifiers : Modifiers) : Modifiers where
  description := (links.filterMap described?).getLast? <|> modifiers.description
  nullable := modifiers.nullable || links.any fun link => link.name ∈ ["nullable", "nullish"]
  optional := modifiers.optional || links.any fun link => link.name ∈ ["optional", "nullish"]

/-- Whether a link makes an array of what stands in front of it. -/
def makesArray (link : Link) : Bool := link.name == "array"

/-- The array of a node, under the links up to the next array. -/
def arrayUnder (items : Node) (links : List Link) : Node :=
  .array (modifiedBy links {}) (some items)

@[simp] theorem modifiedBy_nil (modifiers : Modifiers) : modifiedBy [] modifiers = modifiers := by
  simp [modifiedBy]

theorem modifiedBy_cons (link : Link) (links : List Link) (modifiers : Modifiers) :
    modifiedBy (link :: links) modifiers = modifiedBy links (modifiedBy [link] modifiers) := by
  have described : ((link :: links).filterMap described?).getLast? =
      ((links.filterMap described?).getLast? <|> described? link) := by
    cases given : described? link with
    | none => simp [List.filterMap_cons_none given]
    | some text =>
        rw [List.filterMap_cons_some given, List.getLast?_cons]
        cases (links.filterMap described?).getLast? <;> rfl
  have alone : ([link].filterMap described?).getLast? = described? link := by
    cases given : described? link <;> simp [given]
  simp only [modifiedBy, described, alone, List.any_cons, List.any_nil, Bool.or_false,
    Bool.or_assoc]
  cases (links.filterMap described?).getLast? <;> rfl

/-- The names of the links that change a node. -/
def linkNames : List String :=
  ["nullable", "optional", "nullish", "describe", "description", "array"]

section OneLink

variable {link : Link}

/-- A link that is not known changes nothing. -/
theorem applyLink_unknown (unknown : link.name ∉ linkNames) (node : Node) :
    applyLink node link = .ok node := by
  simp only [linkNames, List.mem_cons, List.not_mem_nil, or_false, not_or] at unknown
  simp [applyLink, unknown]

theorem modifiedBy_unknown (unknown : link.name ∉ linkNames) (modifiers : Modifiers) :
    modifiedBy [link] modifiers = modifiers := by
  simp only [linkNames, List.mem_cons, List.not_mem_nil, or_false, not_or] at unknown
  simp [modifiedBy, described?, unknown]

theorem applyLink_array (makes : makesArray link = true) (node : Node) :
    applyLink node link = .ok (.array {} (some node)) := by
  have named : link.name = "array" := by simpa [makesArray] using makes
  simp [applyLink, named]

/-- A link that makes no array changes the modifiers of a node and nothing else. -/
theorem applyLink_eq (noArray : makesArray link = false)
    (short : ∀ argument ∈ describing? link, Relaxed.ShortIntegers (dropConstAssertion argument))
    (node : Node) :
    applyLink node link = .ok (node.setModifiers (modifiedBy [link] node.modifiers)) := by
  have readable (described : link.name = "describe" ∨ link.name = "description") :
      ∃ text, readDescription link.arguments = .ok text ∧ described? link = text := by
    rw [described?, if_pos described]
    cases read : readDescription link.arguments with
    | ok text => exact ⟨text, rfl, rfl⟩
    | error breakdown =>
        obtain ⟨plain, overlong⟩ := readDescription_breakdown read
        have inside : describing? link = some (trim link.arguments) :=
          if_pos ⟨described, plain⟩
        exact absurd overlong (decodeArgument_ne_breakdown (short _ inside) breakdown)
  by_cases known : link.name ∈ linkNames
  · simp only [linkNames, List.mem_cons, List.not_mem_nil, or_false] at known
    rcases known with named | named | named | named | named | named
    · simp [applyLink, modifiedBy, Node.apply, Modifiers.apply, described?, named]
    · simp [applyLink, modifiedBy, Node.apply, Modifiers.apply, described?, named]
    · simp [applyLink, modifiedBy, Node.apply, Modifiers.apply, described?, named]
    · obtain ⟨text, read, given⟩ := readable (.inl named)
      cases text <;>
        simp [applyLink, modifiedBy, Node.apply, Modifiers.apply, read, given, named]
    · obtain ⟨text, read, given⟩ := readable (.inr named)
      cases text <;>
        simp [applyLink, modifiedBy, Node.apply, Modifiers.apply, read, given, named]
    · simp [makesArray, named] at noArray
  · rw [applyLink_unknown known, modifiedBy_unknown known, Node.setModifiers_modifiers]

end OneLink

theorem applyLinks_cons {node next : Node} {link : Link}
    (applied : applyLink node link = .ok next) (links : List Link) :
    applyLinks node (link :: links) = applyLinks next links := by
  rw [applyLinks, applied]

/-- The links of a chain make one array for every array link, each around the one
before. The node itself gets the modifiers of the links in front of the first
array link, and each array those of the links up to the next one. -/
theorem applyLinks_runs (node : Node) {links : List Link}
    (short : ∀ argument ∈ links.filterMap describing?,
      Relaxed.ShortIntegers (dropConstAssertion argument)) :
    ∃ own others, links.splitOnP makesArray = own :: others ∧
      others.length = links.countP makesArray ∧
      applyLinks node links =
        .ok (others.foldl arrayUnder (node.setModifiers (modifiedBy own node.modifiers))) := by
  induction links generalizing node with
  | nil => exact ⟨[], [], List.splitOnP_nil, rfl, by simp [applyLinks]⟩
  | cons link links ih =>
      have later : ∀ argument ∈ links.filterMap describing?,
          Relaxed.ShortIntegers (dropConstAssertion argument) := by
        intro argument member
        obtain ⟨other, inside, given⟩ := List.mem_filterMap.mp member
        exact short argument
          (List.mem_filterMap.mpr ⟨other, List.mem_cons_of_mem link inside, given⟩)
      rw [List.splitOnP_cons_eq_if_modifyHead, List.countP_cons]
      cases makes : makesArray link with
      | true =>
          obtain ⟨own, others, split, count, applied⟩ := ih (.array {} (some node)) later
          refine ⟨[], own :: others, by simp [split], by simp [count], ?_⟩
          rw [applyLinks_cons (applyLink_array makes node), applied, modifiedBy_nil,
            Node.setModifiers_modifiers]
          rfl
      | false =>
          have here : ∀ argument ∈ describing? link,
              Relaxed.ShortIntegers (dropConstAssertion argument) := fun argument given =>
            short argument (List.mem_filterMap.mpr ⟨link, List.mem_cons_self, given⟩)
          obtain ⟨own, others, split, count, applied⟩ :=
            ih (node.setModifiers (modifiedBy [link] node.modifiers)) later
          refine ⟨link :: own, others, by simp [split], by simp [count], ?_⟩
          rw [applyLinks_cons (applyLink_eq makes here node), applied,
            Node.modifiers_setModifiers, Node.setModifiers_setModifiers, ← modifiedBy_cons]

/-- A description that is no text, and flags in front of and behind two array
links. -/
theorem applyLinks_runs_nested :
    let links : List Link := [⟨"nullish", []⟩, ⟨"describe", "'a'".toList⟩,
      ⟨"description", "12".toList⟩, ⟨"array", []⟩, ⟨"min", "1".toList⟩, ⟨"array", []⟩,
      ⟨"optional", []⟩]
    (∀ argument ∈ links.filterMap describing?,
      Relaxed.ShortIntegers (dropConstAssertion argument)) ∧
    applyLinks (.leaf {} .string) links =
      .ok (.array { optional := true } (some (.array {} (some
        (.leaf { description := some "a", nullable := true, optional := true } .string))))) := by
  intro links
  have few : ∀ argument ∈ links.filterMap describing?,
      (Relaxed.stripComments documentQuotes (dropConstAssertion argument)).length ≤
        Json.integerDigitLimit := by
    decide +kernel
  have short : ∀ argument ∈ links.filterMap describing?,
      Relaxed.ShortIntegers (dropConstAssertion argument) := fun argument member =>
    Relaxed.shortIntegers_of_length (few argument member)
  have runs : links.splitOnP makesArray =
      [links.take 3, [⟨"min", "1".toList⟩], [⟨"optional", []⟩]] := by
    decide +kernel
  obtain ⟨own, others, split, -, applied⟩ := applyLinks_runs (.leaf {} .string) short
  rw [runs, List.cons.injEq] at split
  obtain ⟨rfl, rfl⟩ := split
  have first : modifiedBy (links.take 3) {} =
      { description := some "a", nullable := true, optional := true } := by
    decide +kernel
  have second : modifiedBy [⟨"min", "1".toList⟩] {} = {} := by decide +kernel
  have third : modifiedBy [⟨"optional", []⟩] {} = { optional := true } := by
    decide +kernel
  refine ⟨short, applied.trans ?_⟩
  simp only [List.foldl_cons, List.foldl_nil, arrayUnder, Node.modifiers, first, second, third]
  rfl

/-- A link with its arguments closed, and with blanks around its dot and its name. -/
inductive CompleteLink : List Char → Prop where
  | spaced {before behind between name arguments : List Char}
      (blankBefore : ∀ char ∈ before, isBlank char = true)
      (blankBehind : ∀ char ∈ behind, isBlank char = true)
      (blankBetween : ∀ char ∈ between, isBlank char = true)
      (named : isName name = true)
      (closed : isClosed (fun _ => true) arguments = true) :
      CompleteLink (before ++ '.' :: (behind ++ (name ++
        (between ++ '(' :: (arguments ++ [')'])))))

/-- A constructor call and any number of links, all of them complete. -/
inductive CompleteChain : List Char → Prop where
  | call {before call : List Char} (blank : ∀ char ∈ before, isBlank char = true)
      (complete : CompleteLink call) : CompleteChain (before ++ 'z' :: call)
  | link {chain link : List Char} (begun : CompleteChain chain)
      (complete : CompleteLink link) : CompleteChain (chain ++ link)

theorem CompleteLink.head {text : List Char} (complete : CompleteLink text) :
    ∃ name arguments, ∀ rest,
      linkHead? (text ++ rest) = some (name, arguments ++ ')' :: rest) ∧
      splitClosing .code 0 (arguments ++ ')' :: rest) = some (arguments, rest) := by
  cases complete with
  | @spaced before behind between name arguments blankBefore blankBehind blankBetween named
      closed =>
      refine ⟨name, arguments, fun rest => ⟨?_, ?_⟩⟩
      · have ends : Stops isNamePart (between ++ '(' :: (arguments ++ ')' :: rest)) := by
          cases between with
          | nil => exact stops_cons (by decide)
          | cons char between =>
              apply stops_cons
              rw [Bool.eq_false_iff]
              intro part
              have visible := isBlank_of_isNamePart part
              rw [blankBetween char List.mem_cons_self] at visible
              cases visible
        have parts : before ++ '.' :: (behind ++ (name ++ (between ++ '(' ::
              (arguments ++ [')'])))) ++ rest =
            before ++ '.' :: (behind ++ (name ++ (between ++ '(' ::
              (arguments ++ ')' :: rest)))) := by
          simp
        rw [parts, linkHead?, trimLeft_blanks blankBefore,
          trimLeft_of_stops (stops_cons (by decide)), dropChar?, if_pos rfl]
        simp only
        rw [callName?, trimLeft_blanks blankBehind,
          trimLeft_of_stops (stops_of_isName named _), name?_append named ends]
        simp only
        rw [trimLeft_blanks blankBetween, trimLeft_of_stops (stops_cons (by decide)),
          dropChar?, if_pos rfl]
      · exact splitClosing_balanced (balanced_of_isClosed closed) rfl rest

/-- A complete chain is split into its own call and links, and the links of what
follows it. -/
theorem CompleteChain.split {text : List Char} (complete : CompleteChain text) :
    ∃ call links, ∀ rest, splitChain (text ++ rest) =
      (links? rest).map fun others => ⟨some call, links ++ others⟩ := by
  induction complete with
  | @call before call blank complete =>
      obtain ⟨name, arguments, found⟩ := complete.head
      refine ⟨⟨String.ofList name, arguments⟩, [], fun rest => ?_⟩
      have head : constructorHead? (before ++ 'z' :: call ++ rest) =
          some (name, arguments ++ ')' :: rest) := by
        rw [List.append_assoc, List.cons_append, constructorHead?, trimLeft_blanks blank,
          trimLeft_of_stops (stops_cons (by decide)), dropChar?, if_pos rfl]
        exact (found rest).1
      rw [splitChain, head]
      simp only
      rw [(found rest).2]
      rfl
  | @link chain link _ complete ih =>
      obtain ⟨call, links, split⟩ := ih
      obtain ⟨name, arguments, found⟩ := complete.head
      refine ⟨call, links ++ [⟨String.ofList name, arguments⟩], fun rest => ?_⟩
      rw [List.append_assoc, split, links?_of_head (found rest).1 (found rest).2,
        Option.map_map]
      congr 1
      funext others
      simp

/-- A link that is not known changes nothing among the links of a chain. -/
theorem applyLinks_unknown {link : Link} (unknown : link.name ∉ linkNames)
    (before after : List Link) (node : Node) :
    applyLinks node (before ++ link :: after) = applyLinks node (before ++ after) := by
  induction before generalizing node with
  | nil => exact applyLinks_cons (applyLink_unknown unknown node) after
  | cons first before ih =>
      rw [List.cons_append, List.cons_append, applyLinks, applyLinks]
      cases applyLink node first with
      | error breakdown => rfl
      | ok next => exact ih next

/-- A complete link that is not known may stand behind any complete chain: with it
and without it the expression is read as the same node, or cannot be read. -/
theorem readExpression_unknown {chain : List Char} (complete : CompleteChain chain)
    {name : String} (named : isName name.toList = true) (unknown : name ∉ linkNames)
    {arguments : List Char} (closed : isClosed (fun _ => true) arguments = true)
    (rest : List Char) :
    readExpression (chain ++ (link name arguments ++ rest)) = readExpression (chain ++ rest) := by
  obtain ⟨call, links, split⟩ := complete.split
  have longer := split (link name arguments ++ rest)
  have shorter := split rest
  rw [links?_link named (balanced_of_isClosed closed) rest, Option.map_map] at longer
  cases found : links? rest with
  | none =>
      rw [found] at longer shorter
      rw [readExpression_unsupported (by rw [longer]; rfl),
        readExpression_unsupported (by rw [shorter]; rfl)]
  | some others =>
      rw [found] at longer shorter
      rw [readExpression_eq longer, readExpression_eq shorter]
      have skipped := @applyLinks_unknown ⟨name, arguments⟩ unknown links others
      simp only [skipped]

/-- A check whose arguments hold brackets and quotes in texts, on a line between
a default and a description. -/
theorem readExpression_unknown_refine :
    let chain := "z.array(z.date()) .default( [] )".toList
    let arguments := "d => [\"(\", ')'].length, \x7b\n m: \x60]\\\x60\x60 \x7d".toList
    let rest := "\n  .describe('d')".toList
    CompleteChain chain ∧ isName "refine".toList = true ∧ "refine" ∉ linkNames ∧
      isClosed (fun _ => true) arguments = true ∧
      readExpression (chain ++ (link "refine" arguments ++ rest)) =
        .ok (.array { description := some "d" } (some (.leaf {} .date))) := by
  intro chain arguments rest
  have parts : chain = [] ++ 'z' :: ([] ++ '.' :: ([] ++ ("array".toList ++ ([] ++ '(' ::
      ("z.date()".toList ++ [')']))))) ++ ([' '] ++ '.' :: ([] ++ ("default".toList ++
        ([] ++ '(' :: (" [] ".toList ++ [')']))))) := by
    decide +kernel
  have complete : CompleteChain chain := by
    rw [parts]
    exact .link
      (.call (by simp) (.spaced (by simp) (by simp) (by simp) (by decide +kernel)
        (by decide +kernel)))
      (.spaced (by simp [isBlank]) (by simp) (by simp) (by decide +kernel) (by decide +kernel))
  have named : isName "refine".toList = true := by decide +kernel
  have unknown : "refine" ∉ linkNames := by decide
  have closed : isClosed (fun _ => true) arguments = true := by decide +kernel
  have date : readExpression "z.date()".toList = .ok (.leaf {} .date) :=
    readExpression_leaf (by decide +kernel : splitChain _ = some ⟨some ⟨"date", []⟩, []⟩)
      rfl
  have split : splitChain (chain ++ rest) = some ⟨some ⟨"array", "z.date()".toList⟩,
      [⟨"default", " [] ".toList⟩, ⟨"describe", "'d'".toList⟩]⟩ := by
    decide +kernel
  refine ⟨complete, named, unknown, closed, ?_⟩
  rw [readExpression_unknown complete named unknown closed rest, readExpression_eq split,
    readCall_array (by decide +kernel) date]
  have read : readDescription "'d'".toList = .ok (some "d") := by decide +kernel
  have described : applyLink (.array {} (some (.leaf {} .date))) ⟨"describe", "'d'".toList⟩ =
      .ok (.array { description := some "d" } (some (.leaf {} .date))) := by
    simp only [applyLink, read]
    rfl
  simp only
  rw [applyLinks_cons (applyLink_unknown (by decide) _), applyLinks_cons described]
  rfl

end TwinSchema.Source

import RegisterBridge.Proofs.Expr.LongestMatch

namespace RegisterBridge

open Token

theorem byteLength_eq (text : List Char) : byteLength text = (String.ofList text).utf8ByteSize := by
  induction text with
  | nil => rfl
  | cons c rest ih =>
    rw [String.ofList_cons, String.utf8ByteSize_append, String.utf8ByteSize_singleton, ← ih]
    rfl

theorem byteLength_append (first second : List Char) :
    byteLength (first ++ second) = byteLength first + byteLength second := by
  simp only [byteLength_eq, String.ofList_append, String.utf8ByteSize_append]

theorem byteLength_pos {text : List Char} (nonempty : text ≠ []) : 0 < byteLength text := by
  obtain ⟨c, rest, rfl⟩ := List.exists_cons_of_ne_nil nonempty
  exact Nat.add_pos_left c.utf8Size_pos _

/-- A text that starts at some byte is made of tokens, each the longest that begins where it
stands, and of gaps around them. -/
inductive Tiles : Nat → List Char → List PlacedToken → Prop
  | gap {position : Nat} {gap : List Char} :
      (∀ c ∈ gap, isGap c = true) → Tiles position gap []
  | token {position : Nat} {gap spelling rest : List Char} {token : Token}
      {placed : List PlacedToken} :
      (∀ c ∈ gap, isGap c = true) → Spells spelling token →
      Longest Matches (spelling ++ rest) spelling →
      Tiles (position + byteLength (gap ++ spelling)) rest placed →
      Tiles position (gap ++ (spelling ++ rest)) (⟨token, position + byteLength gap⟩ :: placed)

/-- A text begins with no token, or with a numeral that is too large for one. -/
def Breaks (text : List Char) : Prop :=
  (∀ spelling, spelling <+: text → ¬ Matches spelling) ∨
    ∃ spelling, Oversized spelling ∧ Longest Matches text spelling

namespace Token

theorem scan_gap {gap : List Char} (blank : ∀ c ∈ gap, isGap c = true) (position : Nat)
    (rest : List Char) : scan position (gap ++ rest) = scan (position + byteLength gap) rest := by
  induction gap generalizing position with
  | nil => rfl
  | cons c gap ih =>
    rw [List.cons_append, scan, if_pos (blank c List.mem_cons_self),
      ih (fun d member => blank d (List.mem_cons_of_mem c member)), byteLength, Nat.add_assoc]

theorem first?_of_isGap {c : Char} (gap : isGap c = true) (rest : List Char) :
    first? (c :: rest) = none := by
  simp only [isGap, Bool.or_eq_true, decide_eq_true_eq] at gap
  rcases gap with (((rfl | rfl) | rfl) | rfl) | rfl <;> rfl

end Token

namespace Tiles

theorem scan {position : Nat} {text : List Char} {placed : List PlacedToken}
    (tiles : Tiles position text placed) : Token.scan position text = .ok placed := by
  induction tiles with
  | @gap position gap blank =>
    have scanned := scan_gap blank position []
    rw [List.append_nil] at scanned
    rw [scanned, Token.scan]
  | @token position gap spelling rest token placed blank spells longest _ ih =>
    have first := first?_of_longest spells longest
    obtain ⟨c, others, rfl⟩ := List.exists_cons_of_ne_nil (Matches.ne_nil (Or.inl ⟨token, spells⟩))
    have noGap : isGap c = false := by
      cases gap : isGap c with
      | false => rfl
      | true => cases (first?_of_isGap gap _).symm.trans first
    rw [scan_gap blank, List.cons_append, scan_append first noGap, Nat.add_assoc,
      ← byteLength_append, ih]
    rfl

theorem cons {c : Char} (blank : isGap c = true) {position : Nat} {text : List Char}
    {placed : List PlacedToken} (tiles : Tiles (position + c.utf8Size) text placed) :
    Tiles position (c :: text) placed := by
  have blanks : ∀ {gap : List Char}, (∀ d ∈ gap, isGap d = true) → ∀ d ∈ c :: gap, isGap d = true := by
    intro gap gaps d member
    rcases List.mem_cons.mp member with rfl | inside
    · exact blank
    · exact gaps d inside
  cases tiles with
  | gap gaps => exact .gap (blanks gaps)
  | token gaps spells longest rest =>
    rw [Nat.add_assoc] at rest ⊢
    exact .token (blanks gaps) spells longest rest

/-- Where the tokens of a text stand. -/
theorem boundary {position : Nat} {text : List Char} {placed : List PlacedToken}
    (tiles : Tiles position text placed) : ∀ t ∈ placed, ∃ before after,
      text = before ++ after ∧ t.position = position + byteLength before := by
  induction tiles with
  | gap => simp
  | @token position gap spelling rest token placed _ _ _ _ ih =>
    intro t member
    rcases List.mem_cons.mp member with rfl | later
    · exact ⟨gap, _, rfl, rfl⟩
    · obtain ⟨before, after, rfl, place⟩ := ih t later
      refine ⟨gap ++ spelling ++ before, after, by simp, ?_⟩
      rw [place, byteLength_append _ before, Nat.add_assoc]

theorem ascending {position : Nat} {text : List Char} {placed : List PlacedToken}
    (tiles : Tiles position text placed) : placed.Pairwise (·.position < ·.position) := by
  induction tiles with
  | gap => exact List.Pairwise.nil
  | @token position gap spelling rest token placed _ spells _ tiles ih =>
    refine List.pairwise_cons.mpr ⟨fun t later => ?_, ih⟩
    obtain ⟨before, -, -, place⟩ := tiles.boundary t later
    have some := byteLength_pos (Matches.ne_nil (Or.inl ⟨token, spells⟩))
    rw [place, byteLength_append]
    change position + byteLength gap < _
    omega

end Tiles

/-- What has tokens up to a break has the same tokens without the rest. -/
theorem Token.Longest.cut {spelling before after : List Char}
    (longest : Longest Matches (spelling ++ (before ++ after)) spelling) :
    Longest Matches (spelling ++ before) spelling := by
  refine ⟨List.prefix_append .., fun other within isMatch => longest.greatest other ?_ isMatch⟩
  rw [← List.append_assoc]
  exact within.trans (List.prefix_append ..)

/-- A text is scanned to its end, or up to where no token can be read. -/
theorem scan_cases (position : Nat) (text : List Char) :
    (∃ placed, scan position text = .ok placed ∧ Tiles position text placed) ∨
    ∃ before after placed, text = before ++ after ∧ after ≠ [] ∧
      scan position text = .error (.lexical (position + byteLength before)) ∧
      Tiles position before placed ∧ Breaks after := by
  induction position, text using scan.induct with
  | case1 position => exact Or.inl ⟨[], by rw [scan], .gap (by simp)⟩
  | case2 position c rest blank ih =>
    rw [scan, if_pos blank]
    rcases ih with ⟨placed, scanned, tiles⟩ | ⟨before, after, placed, rfl, nonempty, failed, tiles, breaks⟩
    · exact Or.inl ⟨placed, scanned, tiles.cons blank⟩
    · refine Or.inr ⟨c :: before, after, placed, rfl, nonempty, ?_, tiles.cons blank, breaks⟩
      rw [failed, byteLength, Nat.add_assoc]
  | case3 position c rest noGap none =>
    have reading := first?_reading c rest
    rw [none] at reading
    refine Or.inr ⟨[], c :: rest, [], rfl, List.cons_ne_nil c rest, ?_, .gap (by simp), ?_⟩
    · rw [scan, if_neg noGap, none]
      rfl
    · cases reading with
      | oversized large longest => exact Or.inr ⟨_, large, longest⟩
      | nothing no => exact Or.inl no
  | case4 position c rest noGap token spelling first ih =>
    have reading := first?_reading c rest
    rw [first] at reading
    cases reading with
    | token spells longest =>
      obtain ⟨tail, split⟩ := longest.within
      obtain ⟨d, others, rfl⟩ := List.exists_cons_of_ne_nil (Matches.ne_nil (Or.inl ⟨token, spells⟩))
      rw [List.cons_append] at split
      obtain ⟨rfl, rfl⟩ := List.cons.inj split
      rw [List.length_cons, Nat.add_sub_cancel, List.drop_left] at ih
      have step := scan_append first (Bool.not_eq_true _ ▸ noGap) position
      have here : ∀ {text placed}, Longest Matches (d :: others ++ text) (d :: others) →
          Tiles (position + byteLength (d :: others)) text placed →
          Tiles position (d :: (others ++ text)) (⟨token, position⟩ :: placed) :=
        fun longest tiles => @Tiles.token position [] _ _ _ _ (by simp) spells longest tiles
      rcases ih with ⟨placed, scanned, tiles⟩ |
        ⟨before, after, placed, rfl, nonempty, failed, tiles, breaks⟩
      · exact Or.inl ⟨_, by rw [step, scanned]; rfl, here longest tiles⟩
      · refine Or.inr ⟨d :: others ++ before, after, _, by simp, nonempty, ?_,
          here longest.cut tiles, breaks⟩
        rw [step, failed, byteLength_append, Nat.add_assoc]
        rfl

/-- A source is tokenized where tokens, each the longest at its place, and gaps cover it, and then
in one way. Any other source is covered up to a place where there is no token, or where the longest
match is a numeral that is too large for one. -/
theorem tokenize_tiles (source : String) :
    (∀ placed, tokenize source = .ok placed ↔ Tiles 0 source.toList placed) ∧
    ((∃ placed, tokenize source = .ok placed ∧ placed.Pairwise (·.position < ·.position) ∧
        ∀ t ∈ placed, (String.Pos.Raw.mk t.position).IsValid source) ∨
      ∃ before after, source = before ++ after ∧ after ≠ "" ∧
        tokenize source = .error (.lexical before.utf8ByteSize) ∧
        (∃ placed, tokenize before = .ok placed) ∧ Breaks after.toList) := by
  have scanned := scan_cases 0 source.toList
  refine ⟨fun placed => ⟨fun tokenized => ?_, fun tiles => tiles.scan⟩, ?_⟩
  · rcases scanned with ⟨placed', done, tiles⟩ | ⟨before, after, -, -, -, failed, -⟩
    · cases tokenized.symm.trans done
      exact tiles
    · cases tokenized.symm.trans failed
  · rcases scanned with ⟨placed, done, tiles⟩ |
      ⟨before, after, placed, split, nonempty, failed, tiles, breaks⟩
    · refine Or.inl ⟨placed, done, tiles.ascending, fun t member => ?_⟩
      obtain ⟨before, after, split, place⟩ := tiles.boundary t member
      refine String.Pos.Raw.isValid_iff_exists_append.mpr ⟨.ofList before, .ofList after, ?_, ?_⟩
      · rw [← String.ofList_append, ← split, String.ofList_toList]
      · rw [place, Nat.zero_add, byteLength_eq]
        rfl
    · refine Or.inr ⟨.ofList before, .ofList after, ?_, ?_, ?_, ⟨placed, ?_⟩, ?_⟩
      · rw [← String.ofList_append, ← split, String.ofList_toList]
      · rwa [Ne, String.ofList_eq_empty_iff]
      · rw [← byteLength_eq, ← Nat.zero_add (byteLength before)]
        exact failed
      · rw [tokenize, String.toList_ofList]
        exact tiles.scan
      · rwa [String.toList_ofList]

end RegisterBridge

import ProseLint.Document.Stored
import ProseLint.Proofs.Document.Nesting
import ProseLint.Proofs.Json.RoundTrip
import ProseLint.Proofs.List.Map

/-! Documents that are stored and read back. The stored form is a tree, and reading it builds
the sections up one by one. Since the sections stand in the order of a walk through the tree,
each is read when exactly those before it have been. -/

namespace ProseLint

namespace Sentence

/-- The sentence has places, unless it has no characters. Whatever makes a sentence fills in
places that are left out. -/
def IsPlaced (s : Sentence) : Prop := s.positions = [] → s.content = []

/-- The sentence as it is stored. -/
def withoutTokens (s : Sentence) : Sentence := { s with tokens := [] }

theorem atPlace_isPlaced (content : Text) (line start : Int) (isFirst : Bool) (links : List Text)
    (positions : List Position) (markup : List (Int × Int)) :
    (atPlace content line start isFirst links positions markup).IsPlaced := by
  intro hNone
  simp only [atPlace] at hNone
  split at hNone
  · simpa [positionsFrom, atPlace] using hNone
  · next hSome => simp [hNone] at hSome

/-- Making a sentence anew from what is stored of it gives it back. -/
theorem atPlace_eq {s : Sentence} (h : s.IsPlaced) :
    atPlace s.content s.line s.start s.isFirst s.links s.positions s.markup = s.withoutTokens := by
  simp only [atPlace, withoutTokens]
  split
  · next hNone =>
      have hPositions : s.positions = [] := List.isEmpty_iff.mp hNone
      rw [h hPositions, hPositions]
      rfl
  · rfl

end Sentence

namespace Stored

theorem mapM_map_eq {α β γ : Type} {encode : α → β} {decode : β → Except StoredFault γ}
    {f : α → γ} {items : List α} (h : ∀ a ∈ items, decode (encode a) = .ok (f a)) :
    (items.map encode).mapM decode = .ok (items.map f) := by
  rw [List.mapM_map]
  exact mapM_eq_pure_map h

theorem text_text (t : Text) : text (Json.text t) = .ok t := by
  rw [Json.text, text, String.toList_ofList]

theorem pair_pairJson (a b : Int) : pair (pairJson a b) = .ok (a, b) := rfl

theorem sentence_sentenceJson {s : Sentence} (h : s.IsPlaced) :
    sentence (sentenceJson s) = .ok s.withoutTokens := by
  have hLinks : (s.links.map Json.text).mapM text = .ok s.links := by
    simpa using mapM_map_eq (f := id) fun t _ => text_text t
  have hPositions : (s.positions.map fun p => pairJson p.line p.offset).mapM pair =
      .ok (s.positions.map fun p => (p.line, p.offset)) :=
    mapM_map_eq fun p _ => pair_pairJson p.line p.offset
  have hMarkup : (s.markup.map fun r => pairJson r.1 r.2).mapM pair = .ok s.markup := by
    simpa using mapM_map_eq (f := id) fun r _ => pair_pairJson r.1 r.2
  have hPlaces : (s.positions.map fun p => (p.line, p.offset)).map
      (fun p => (⟨p.1, p.2⟩ : Position)) = s.positions := by
    rw [List.map_map]
    exact List.map_id _
  calc
    sentence (sentenceJson s) = do
        let content ← text (Json.text s.content)
        let links ← (s.links.map Json.text).mapM text
        let positions ← (s.positions.map fun p => pairJson p.line p.offset).mapM pair
        let markup ← (s.markup.map fun r => pairJson r.1 r.2).mapM pair
        return .atPlace content s.line s.start s.isFirst links
          (positions.map fun p => ⟨p.1, p.2⟩) markup := rfl
    _ = .ok s.withoutTokens := by
        rw [text_text, hLinks, hPositions, hMarkup, ← Sentence.atPlace_eq h]
        exact congrArg (fun places => Except.ok (Sentence.atPlace s.content s.line s.start
          s.isFirst s.links places s.markup)) hPlaces

theorem sentences_sentencesJson {ss : List Sentence} (h : ∀ s ∈ ss, s.IsPlaced) :
    (ss.map sentenceJson).mapM sentence = .ok (ss.map Sentence.withoutTokens) :=
  mapM_map_eq fun s hMem => sentence_sentenceJson (h s hMem)

theorem element_elementJson {e : ListElement Sentence} (h : ∀ s ∈ e.sentences, s.IsPlaced) :
    element (elementJson e) = .ok (e.map Sentence.withoutTokens) := by
  calc
    element (elementJson e) = do
        return ⟨e.level, ← (e.sentences.map sentenceJson).mapM sentence⟩ := rfl
    _ = .ok (e.map Sentence.withoutTokens) := by
        rw [sentences_sentencesJson h]
        rfl

theorem listBlock_elementJson {b : List (ListElement Sentence)}
    (h : ∀ e ∈ b, ∀ s ∈ e.sentences, s.IsPlaced) :
    listBlock (.list (b.map elementJson)) = .ok (b.map (·.map Sentence.withoutTokens)) :=
  mapM_map_eq fun e hMem => element_elementJson (h e hMem)

theorem rule_ruleJson (r : SuppressRule) : rule (ruleJson r) = .ok r := by
  have hNames : (r.names.map Json.text).mapM text = .ok r.names := by
    simpa using mapM_map_eq (f := id) fun t _ => text_text t
  calc
    rule (ruleJson r) = do return ⟨r.line, ← (r.names.map Json.text).mapM text⟩ := rfl
    _ = .ok r := by
        rw [hNames]
        rfl

/-- A section is read back on its own before the sections inside it are. -/
theorem ownSection_sectionFields {s : Section Sentence} (h : ∀ x ∈ s.sentences, x.IsPlaced)
    (parent : Option Nat) (inner : Json) :
    ownSection parent (sectionFields s ++ [("subsections", inner)]) =
      .ok { s.map Sentence.withoutTokens with parent := parent, subsections := [] } := by
  have hHeader := sentences_sentencesJson fun x hMem =>
    h x (Section.mem_sentences.mpr (Or.inl hMem))
  have hParagraphs : (s.paragraphs.map sentencesJson).mapM sentences =
      .ok (s.paragraphs.map (·.map Sentence.withoutTokens)) :=
    mapM_map_eq fun p hMem => sentences_sentencesJson fun x hIn =>
      h x (Section.mem_sentences.mpr (Or.inr (Or.inl ⟨p, hMem, hIn⟩)))
  have hBlocks : (s.listBlocks.map fun b => .list (b.map elementJson)).mapM listBlock =
      .ok (s.listBlocks.map (·.map (·.map Sentence.withoutTokens))) :=
    mapM_map_eq fun b hMem => listBlock_elementJson fun e hElement x hIn =>
      h x (Section.mem_sentences.mpr (Or.inr (Or.inr ⟨b, hMem, e, hElement, hIn⟩)))
  calc
    ownSection parent (sectionFields s ++ [("subsections", inner)]) = do
        let header ← (s.header.map sentenceJson).mapM sentence
        let paragraphs ← (s.paragraphs.map sentencesJson).mapM sentences
        let listBlocks ← (s.listBlocks.map fun b => .list (b.map elementJson)).mapM listBlock
        return ⟨s.level, header, paragraphs, listBlocks, parent, []⟩ := rfl
    _ = .ok { s.map Sentence.withoutTokens with parent := parent, subsections := [] } := by
        rw [hHeader, hParagraphs, hBlocks]
        rfl

/-! ## Sections in order -/

theorem sectionJson_eq {d : Document Sentence} {i : Nat} {s : Section Sentence}
    (hAt : d.sections[i]? = some s) :
    sectionJson d i = .object (sectionFields s ++
      [("subsections", .list ((d.childrenOf i).map (sectionJson d)))]) := by
  rw [sectionJson]
  split
  · next hNone => rw [hAt] at hNone; cases hNone
  · next r hIs =>
      rw [hAt] at hIs
      cases hIs
      simp

/-- What is there once the first `n` sections have been read: they are without tokens, and
only the subsections among them are recorded so far. -/
def restored (sections : List (Section Sentence)) (n : Nat) : List (Section Sentence) :=
  (sections.take n).map fun s =>
    { s.map Sentence.withoutTokens with subsections := s.subsections.filter fun j => decide (j < n) }

theorem addSubsections_sectionFields (parent : Option Nat) (done : List (Section Sentence))
    (s : Section Sentence) (inner : List Json) :
    addSubsections parent done (sectionFields s ++ [("subsections", .list inner)]) =
      addSections parent done inner := rfl

theorem getElem?_restored (sections : List (Section Sentence)) (n i : Nat) :
    (restored sections n)[i]? = if i < n then sections[i]?.map fun s =>
      { s.map Sentence.withoutTokens with
        subsections := s.subsections.filter fun j => decide (j < n) }
      else none := by
  rw [restored, List.getElem?_map, List.getElem?_take]
  split <;> rfl

/-- The subsections recorded among the first sections, with one more section read. -/
theorem filter_subsections_succ {sections : List (Section Sentence)} (h : IsNested sections)
    {i lo : Nat} {r s : Section Sentence} (hr : sections[i]? = some r)
    (hs : sections[lo]? = some s) :
    (r.subsections.filter fun j => decide (j < lo + 1)) =
      (r.subsections.filter fun j => decide (j < lo)) ++
        if s.parent = some i then [lo] else [] := by
  have hBound := (List.getElem?_eq_some_iff.mp hs).1
  have hParent := getElem?_parents.mpr ⟨s, hs, rfl⟩
  rw [h.subsections i r hr, filter_inside _ _ hBound, filter_inside _ _ hBound.le, inside_succ,
    hParent]
  simp

theorem filter_subsections_self {sections : List (Section Sentence)} (h : IsNested sections)
    {lo : Nat} {s : Section Sentence} (hs : sections[lo]? = some s) :
    (s.subsections.filter fun j => decide (j < lo + 1)) = [] := by
  have hBound := (List.getElem?_eq_some_iff.mp hs).1
  rw [h.subsections lo s hs, filter_inside _ _ hBound, h.inside_self_eq_nil le_rfl]

theorem length_restored {sections : List (Section Sentence)} {lo : Nat}
    (hLe : lo ≤ sections.length) : (restored sections lo).length = lo := by
  rw [restored, List.length_map, List.length_take, min_eq_left hLe]

/-- Reading one more section also records it in the one around it. -/
theorem attach_restored {sections : List (Section Sentence)} (h : IsNested sections) {lo : Nat}
    {s : Section Sentence} (hAt : sections[lo]? = some s) :
    Section.attach (restored sections lo)
      { s.map Sentence.withoutTokens with parent := s.parent, subsections := [] } =
        restored sections (lo + 1) := by
  have hLength := length_restored (List.getElem?_eq_some_iff.mp hAt).1.le
  apply List.ext_getElem?
  intro i
  rw [Section.getElem?_attach, hLength, getElem?_restored, getElem?_restored]
  rcases Nat.lt_trichotomy i lo with hLt | rfl | hGt
  · rw [if_neg hLt.ne, if_pos hLt, if_pos (by omega), Option.map_map]
    cases hr : sections[i]? with
    | none => rfl
    | some r =>
        -- An earlier section gains `lo` exactly if it is the parent.
        have hMore := filter_subsections_succ h hr hAt
        simp only [Option.map_some, Function.comp_apply, hMore, Section.enclose]
        split <;> simp
  · rw [if_pos rfl, if_pos (Nat.lt_succ_self i), hAt, Option.map_some,
      filter_subsections_self h hAt]
    rfl
  · rw [if_neg hGt.ne', if_neg (by omega), if_neg (by omega)]
    rfl

/-- The sections of a forest are read in their order, each with all that is inside it, once
those in front of it have been. -/
theorem addSections_forest {d : Document Sentence} (h : IsNested d.sections)
    (hPlaced : ∀ s ∈ d.sentences, s.IsPlaced) {p : Option Nat} {lo hi : Nat} {roots : List Nat}
    (hForest : IsForest d.sections p lo hi roots) :
    addSections p (restored d.sections lo) (roots.map (sectionJson d)) =
      .ok (restored d.sections hi) := by
  induction hForest with
  | nil p lo => rfl
  | @cons lo mid hi s rest root inner outer hInner hOuter =>
      have hOwn := ownSection_sectionFields (s := s)
        (fun x hMem => hPlaced x (List.mem_flatMap.mpr ⟨s, List.mem_of_getElem? root, hMem⟩))
        s.parent (.list ((d.childrenOf lo).map (sectionJson d)))
      have hLength := length_restored (List.getElem?_eq_some_iff.mp root).1.le
      have hFirst : addSection s.parent (restored d.sections lo) (sectionJson d lo) =
          .ok (restored d.sections mid) := by
        rw [sectionJson_eq root, addSection, hOwn]
        calc
          _ = addSubsections (some (restored d.sections lo).length)
                (Section.attach (restored d.sections lo)
                  { s.map Sentence.withoutTokens with parent := s.parent, subsections := [] })
                (sectionFields s ++
                  [("subsections", .list ((d.childrenOf lo).map (sectionJson d)))]) := rfl
          _ = .ok (restored d.sections mid) := by
              rw [attach_restored h root, hLength, addSubsections_sectionFields,
                Document.childrenOf_eq h root, hInner]
      rw [List.map_cons, addSections, hFirst]
      exact hOuter

theorem restored_length {sections : List (Section Sentence)} (h : IsNested sections) :
    restored sections sections.length = sections.map (·.map Sentence.withoutTokens) := by
  rw [restored, List.take_length]
  refine List.map_congr_left fun s hMem => ?_
  obtain ⟨i, hAt⟩ := List.getElem?_of_mem hMem
  have hAll : (s.subsections.filter fun j => decide (j < sections.length)) = s.subsections := by
    rw [h.subsections i s hAt, filter_inside _ _ le_rfl]
  rw [hAll]
  rfl

theorem document_documentJson {d : Document Sentence} (h : IsNested d.sections)
    (hPlaced : ∀ s ∈ d.sentences, s.IsPlaced) :
    document (documentJson d) = .ok (d.map Sentence.withoutTokens) := by
  have hSections := addSections_forest h hPlaced ((IsStretch.all d.sections).isForest h)
  rw [← Document.roots_eq, restored_length h] at hSections
  have hRules : (d.rules.map ruleJson).mapM rule = .ok d.rules := by
    simpa using mapM_map_eq (f := id) fun r _ => rule_ruleJson r
  have hRead : document (documentJson d) = do
      let sections ← addSections none (restored d.sections 0) (d.roots.map (sectionJson d))
      let rules ← (d.rules.map ruleJson).mapM rule
      return ⟨sections, d.fileName, rules⟩ := by
    rw [documentJson]
    cases d.fileName with
    | none => rfl
    | some t =>
        show (do
          let sections ← addSections none [] (d.roots.map (sectionJson d))
          let rules ← (d.rules.map ruleJson).mapM rule
          let fileName ← (text (Json.text t)).map some
          return (⟨sections, fileName, rules⟩ : Document Sentence)) = _
        rw [text_text]
        rfl
  rw [hRead, hSections, hRules]
  rfl

/-! ## The stored form as a text -/

theorem pairJson_isPlain (a b : Int) : (pairJson a b).IsPlain :=
  .list (by simp [Json.IsPlain.int])

theorem list_map_isPlain {α : Type} {encode : α → Json} {items : List α}
    (h : ∀ a ∈ items, (encode a).IsPlain) : (Json.list (items.map encode)).IsPlain :=
  .list fun v hMem => by
    obtain ⟨a, hIn, rfl⟩ := List.mem_map.mp hMem
    exact h a hIn

theorem sentenceJson_isPlain (s : Sentence) : (sentenceJson s).IsPlain := by
  have hLinks : (Json.list (s.links.map .text)).IsPlain := list_map_isPlain fun _ _ => .str _
  have hPositions : (Json.list (s.positions.map fun p => pairJson p.line p.offset)).IsPlain :=
    list_map_isPlain fun _ _ => pairJson_isPlain _ _
  have hMarkup : (Json.list (s.markup.map fun r => pairJson r.1 r.2)).IsPlain :=
    list_map_isPlain fun _ _ => pairJson_isPlain _ _
  refine .object (by simp) ?_
  simp only [List.forall_mem_cons, List.not_mem_nil, false_imp_iff, implies_true, and_true]
  exact ⟨.str _, .int _, .int _, .bool _, hLinks, hPositions, hMarkup⟩

theorem sentencesJson_isPlain (ss : List Sentence) : (sentencesJson ss).IsPlain :=
  list_map_isPlain fun s _ => sentenceJson_isPlain s

theorem elementJson_isPlain (e : ListElement Sentence) : (elementJson e).IsPlain := by
  refine .object (by simp) ?_
  simp only [List.forall_mem_cons, List.not_mem_nil, false_imp_iff, implies_true, and_true]
  exact ⟨.int _, sentencesJson_isPlain _⟩

theorem sectionJson_isPlain (d : Document Sentence) (i : Nat) : (sectionJson d i).IsPlain := by
  induction i using sectionJson.induct d with
  | case1 i hNone =>
      rw [sectionJson]
      split
      · exact .null
      · next s hAt => rw [hNone] at hAt; cases hAt
  | case2 i s hAt ih =>
      rw [sectionJson_eq hAt]
      refine .object (by simp [sectionFields]) ?_
      simp only [sectionFields, List.cons_append, List.nil_append, List.forall_mem_cons,
        List.not_mem_nil, false_imp_iff, implies_true, and_true]
      refine ⟨.int _, sentencesJson_isPlain _, ?_, ?_, ?_⟩
      · exact list_map_isPlain fun p _ => sentencesJson_isPlain p
      · exact list_map_isPlain fun b _ => list_map_isPlain fun e _ => elementJson_isPlain e
      · exact list_map_isPlain fun j hMem => ih ⟨j, hMem⟩

theorem ruleJson_isPlain (r : SuppressRule) : (ruleJson r).IsPlain := by
  refine .object (by simp) ?_
  simp only [List.forall_mem_cons, List.not_mem_nil, false_imp_iff, implies_true, and_true]
  exact ⟨.int _, list_map_isPlain fun _ _ => .str _⟩

theorem documentJson_isPlain (d : Document Sentence) : (documentJson d).IsPlain := by
  refine .object (by simp) ?_
  simp only [List.forall_mem_cons, List.not_mem_nil, false_imp_iff, implies_true, and_true]
  refine ⟨?_, list_map_isPlain fun i _ => sectionJson_isPlain d i,
    list_map_isPlain fun r _ => ruleJson_isPlain r⟩
  cases d.fileName with
  | none => exact .null
  | some t => exact .str _

end Stored

theorem Builder.build_isPlaced {operations : List Builder.Operation}
    (h : ∀ o ∈ operations, ∀ s ∈ o.sentences, s.IsPlaced) (tokenizer : Option Tokenizer) :
    ∀ s ∈ ((Builder.run operations).build tokenizer).sentences, s.IsPlaced := by
  intro s hMem
  rw [Builder.build_sentences] at hMem
  obtain ⟨built, hBuilt, rfl⟩ := List.mem_map.mp hMem
  have hIn := (Builder.run_sentences_perm operations).mem_iff.mp hBuilt
  obtain ⟨o, hOperation, hFrom⟩ := List.mem_flatMap.mp hIn
  have hPlaced := h o hOperation built hFrom
  simpa [Sentence.IsPlaced] using hPlaced

/-- A document that is built in any way is read back from its stored text as it was, with its
sections in the same order and inside each other in the same way. Only tokens are lost. Nothing
is assumed of the levels, and nothing of the sentences but that they have places if they have
characters. -/
theorem deserialize_serialize (operations : List Builder.Operation)
    (hPlaced : ∀ o ∈ operations, ∀ s ∈ o.sentences, s.IsPlaced) (tokenizer : Option Tokenizer) :
    let d := (Builder.run operations).build tokenizer
    Document.deserialize d.serialize = .ok (d.map Sentence.withoutTokens) := by
  intro d
  have hText : Json.read? d.serialize = some (Stored.documentJson d) :=
    Json.read?_render (Stored.documentJson_isPlain d) (.block 2)
  rw [Document.deserialize, hText]
  exact Stored.document_documentJson (Builder.build_isNested operations tokenizer)
    (Builder.build_isPlaced hPlaced tokenizer)

/-- Sections that nest, with a list and a quote that has to be escaped. -/
theorem deserialize_serialize_list :
    let header := Sentence.atPlace "On \"it\".".toList 1 2 true [] [] []
    let item := Sentence.atPlace "One\ttab.".toList 3 2 true ["a/b".toList] [] [(0, 3)]
    let operations : List Builder.Operation :=
      [.setFileName "x.md".toList, .addRule ⟨1, ["Length".toList]⟩, .addSection 1 [header],
        .addSection 3 [], .addListElement 1 [item], .addSection 2 []]
    let d := (Builder.run operations).build none
    (∀ o ∈ operations, ∀ s ∈ o.sentences, s.IsPlaced) ∧
      Document.deserialize d.serialize = .ok (d.map Sentence.withoutTokens) := by
  intro header item operations d
  have hPlaced : ∀ o ∈ operations, ∀ s ∈ o.sentences, s.IsPlaced := by
    simp [operations, header, item, Builder.Operation.sentences, Sentence.atPlace_isPlaced]
  exact ⟨hPlaced, deserialize_serialize operations hPlaced none⟩

end ProseLint

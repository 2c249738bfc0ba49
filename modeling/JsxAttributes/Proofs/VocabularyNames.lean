import JsxAttributes.Proofs.VocabularyTable
import JsxAttributes.Vocabulary.Resolve
import JsxAttributes.Vocabulary.Spelling
import Mathlib.Data.List.Nodup

/-! The names in the vocabularies. In small letters no two properties of a schema have the same name, and
the name of an attribute is that of its property or has a sign or a word that no property has. So a name
that is known means one property, and the property is found again by its name. -/
namespace JsxAttributes

/-! ## Entries by their characters -/

/-- The entries with their texts spelled, as lists that can be computed with. -/
def IsSpelled {α β : Type} (f : β → α) (es : List (String × α)) (spelled : List (List Char × β)) :
    Prop := es = spelled.map fun e => (String.ofList e.1, f e.2)

namespace IsSpelled
variable {α β : Type} {f : β → α} {es es' : List (String × α)}
  {spelled spelled' : List (List Char × β)}

theorem nil : IsSpelled f [] [] := rfl

theorem cons {t : String} {a : α} {l : List Char} {b : β} (ht : t = String.ofList l) (ha : a = f b)
    (h : IsSpelled f es spelled) : IsSpelled f ((t, a) :: es) ((l, b) :: spelled) := by
  rw [ht, ha, h]
  rfl

theorem append (h : IsSpelled f es spelled) (h' : IsSpelled f es' spelled') :
    IsSpelled f (es ++ es') (spelled ++ spelled') := by
  rw [h, h', IsSpelled, List.map_append]

theorem forall_mem (h : IsSpelled f es spelled) {p : String × α → Prop}
    (hp : ∀ e ∈ spelled, p (String.ofList e.1, f e.2)) : ∀ e ∈ es, p e := by
  rw [h]
  exact List.forall_mem_map.2 hp

end IsSpelled

/-! ## Names in small letters -/

def small (name : List Char) : List Char := name.map Char.toLower

def isAscii (name : List Char) : Bool := name.all (·.toNat < 0x80)

theorem lowercased_ofList {name : List Char} (h : isAscii name = true) :
    Text.lowercased (String.ofList name) = String.ofList (small name) := by
  apply String.toList_injective
  rw [Text.toList_lowercased_of_ascii, String.toList_ofList, String.toList_ofList, small]
  simpa [isAscii] using h

def dataLetters : List Char := ['d', 'a', 't', 'a']

/-- No name of a property in small letters, and no data name. -/
def isForeign (name : List Char) : Bool :=
  !dataLetters.isPrefixOf name &&
    (name.any (!·.isAlphanum) || name == ['c', 'l', 'a', 's', 's'] || name == ['f', 'o', 'r'])

/-- The attribute is spelled as the property but for capitals, or as no property is. -/
def Renames (property written : String) : Prop :=
  Text.lowercased written = Text.lowercased property ∨
    isForeign (Text.lowercased written).toList = true

theorem Renames.trans {a b c : String} (h : Renames a b) (h' : Renames b c) : Renames a c := by
  cases h' with
  | inl he =>
    rw [Renames, he]
    exact h
  | inr hf => exact .inr hf

/-! ## The names of a schema -/

/-- A number for a name, not the same for any two names below. -/
def fingerprint (name : List Char) : Nat := name.foldl (fun n c => (45 * n + c.toNat) % 32749) 0

/-- No number is repeated or among the bits of `seen`. -/
def distinctFrom (seen : Nat) : List Nat → Bool
  | [] => true
  | n :: r => !seen.testBit n && distinctFrom (seen ||| 1 <<< n) r

theorem distinctFrom_spec {ns : List Nat} {seen : Nat} (h : distinctFrom seen ns = true) :
    ns.Nodup ∧ ∀ n ∈ ns, seen.testBit n = false := by
  induction ns generalizing seen with
  | nil => simp
  | cons n r ih =>
    rw [distinctFrom, Bool.and_eq_true, Bool.not_eq_true'] at h
    obtain ⟨hr, hseen⟩ := ih h.2
    simp only [Nat.testBit_or, Bool.or_eq_false_iff, Nat.one_shiftLeft,
      Nat.testBit_two_pow, decide_eq_false_iff_not] at hseen
    refine ⟨List.nodup_cons.2 ⟨fun hn => (hseen n hn).2 rfl, hr⟩, List.forall_mem_cons.2 ⟨h.1, ?_⟩⟩
    exact fun k hk => (hseen k hk).1

/-- What the names of a schema have in common; only `dataName` starts as data names do. -/
structure NamesFit (dataName : List Char) (es : List (String × Shape)) : Prop where
  ascii : ∀ e ∈ es, ∀ c ∈ e.1.toList, c.toNat < 0x80
  nodup : (es.map fun e => Text.lowercased e.1).Nodup
  native : ∀ e ∈ es, isForeign (Text.lowercased e.1).toList = false
  data : ∀ e ∈ es, dataLetters <+: (Text.lowercased e.1).toList →
    (Text.lowercased e.1).toList = dataName

def namesFit (dataName : List Char) (names : List (List Char)) : Bool :=
  names.all isAscii && distinctFrom 0 (names.map fun n => fingerprint (small n)) &&
    names.all fun n =>
      !isForeign (small n) && (!dataLetters.isPrefixOf (small n) || small n == dataName)

theorem namesFit_of_spelled {dataName : List Char} {es : List (String × Shape)}
    {spelled : List (List Char × Shape)} (hs : IsSpelled id es spelled)
    (hf : namesFit dataName (spelled.map Prod.fst) = true) : NamesFit dataName es := by
  simp only [namesFit, Bool.and_eq_true, List.all_map, List.all_eq_true, Function.comp_apply,
    Bool.not_eq_true', Bool.or_eq_true, beq_iff_eq] at hf
  obtain ⟨⟨hascii, hdistinct⟩, hnames⟩ := hf
  have hlower : ∀ e ∈ spelled, (Text.lowercased (String.ofList e.1)).toList = small e.1 := by
    intro e he
    rw [lowercased_ofList (hascii e he), String.toList_ofList]
  refine ⟨hs.forall_mem fun e he => ?_, ?_, hs.forall_mem fun e he => ?_,
    hs.forall_mem fun e he hp => ?_⟩
  · simpa [isAscii] using hascii e he
  · apply List.Nodup.of_map fun t : String => fingerprint t.toList
    have hprints : (es.map fun e => Text.lowercased e.1).map (fun t => fingerprint t.toList) =
        (spelled.map Prod.fst).map fun n => fingerprint (small n) := by
      rw [hs]
      simp only [List.map_map]
      refine List.map_congr_left fun e he => ?_
      simp only [Function.comp_apply, hlower e he]
    rw [hprints]
    exact (distinctFrom_spec hdistinct).1
  · rw [hlower e he]
    exact (hnames e he).1
  · rw [hlower e he] at hp ⊢
    rw [← List.isPrefixOf_iff_prefix] at hp
    simpa [hp] using (hnames e he).2

namespace Schema

/-- The properties of the vocabularies, in the order in which they claim their names. -/
def properties (s : Schema) : List (String × Shape) := s.vocabularies.flatMap (·.properties)

def infos (s : Schema) : List Info := s.vocabularies.flatMap Vocabulary.infos

/-- The vocabulary of the language itself. -/
def language : Schema → Vocabulary
  | .html => Vocabulary.html
  | .svg => Vocabulary.svg

/-- The one property whose name starts as data names do. -/
def dataProperty : Schema → String
  | .html => "data"
  | .svg => "dataType"

def dataName (s : Schema) : List Char := small s.dataProperty.toList

theorem namesFit (s : Schema) : NamesFit s.dataName s.properties := by
  cases s
  all_goals
    simp only [properties, vocabularies, List.flatMap_cons, List.flatMap_nil, List.append_nil]
    apply namesFit_of_spelled
    · repeat apply IsSpelled.append
      all_goals
        repeat apply IsSpelled.cons rfl rfl
        exact .nil
    · decide +kernel

end Schema

/-! ## The names of attributes -/

/-- All entries have another name that is spelled alike or foreign. -/
def renamesFit (foreign : Bool) (es : List (List Char × List Char)) : Bool :=
  es.all fun e => isAscii e.1 && isAscii e.2 &&
    (small e.2 == small e.1 || foreign && isForeign (small e.2))

theorem respells_of_spelled {foreign : Bool} {es : List (String × String)}
    {spelled : List (List Char × List Char)} (hs : IsSpelled String.ofList es spelled)
    (hf : renamesFit foreign spelled = true) :
    ∀ e ∈ es, Text.lowercased e.2 = Text.lowercased e.1 ∨
      foreign = true ∧ isForeign (Text.lowercased e.2).toList = true := by
  refine hs.forall_mem fun e he => ?_
  simp only [renamesFit, List.all_eq_true, Bool.and_eq_true, Bool.or_eq_true, beq_iff_eq] at hf
  obtain ⟨⟨hfst, hsnd⟩, hnames⟩ := hf e he
  rw [lowercased_ofList hfst, lowercased_ofList hsnd, String.toList_ofList]
  exact hnames.imp_left (congrArg String.ofList)

theorem renames_of_spelled {es : List (String × String)} {spelled : List (List Char × List Char)}
    (hs : IsSpelled String.ofList es spelled) (hf : renamesFit true spelled = true) :
    ∀ e ∈ es, Renames e.1 e.2 :=
  fun e he => (respells_of_spelled hs hf e he).imp_right And.right

theorem lowercased_reactSpelling {property spelling : String}
    (h : reactSpelling? property = some spelling) :
    Text.lowercased spelling = Text.lowercased property := by
  have hall : ∀ e ∈ reactSpellings, Text.lowercased e.2 = Text.lowercased e.1 ∨
      false = true ∧ isForeign (Text.lowercased e.2).toList = true := by
    apply respells_of_spelled
    · repeat apply IsSpelled.cons rfl rfl
      exact .nil
    · decide +kernel
  rw [reactSpelling?] at h
  exact (hall (property, spelling) (mem_of_findEntry h)).resolve_right fun hf => nomatch hf.1

namespace Vocabulary

variable {v : Vocabulary} {property : String}

theorem renames_attributeOf (hs : Renames property (v.suggestedAttribute property))
    (he : ∀ e ∈ v.exceptions, Renames e.1 e.2) : Renames property (v.attributeOf property) := by
  rw [attributeOf]
  cases h : findEntry (v.suggestedAttribute property) v.exceptions with
  | none => exact hs
  | some written =>
    have hwritten := he (v.suggestedAttribute property, written) (mem_of_findEntry h)
    exact hs.trans hwritten

theorem renames_exceptions_html : ∀ e ∈ html.exceptions, Renames e.1 e.2 := by
  apply renames_of_spelled
  · repeat apply IsSpelled.cons rfl rfl
    exact .nil
  · decide +kernel

theorem renames_exceptions_svg : ∀ e ∈ svg.exceptions, Renames e.1 e.2 := by
  apply renames_of_spelled
  · repeat apply IsSpelled.cons rfl rfl
    exact .nil
  · decide +kernel

theorem renames_exceptions_xmlns : ∀ e ∈ xmlns.exceptions, Renames e.1 e.2 := by
  apply renames_of_spelled
  · exact .cons rfl rfl .nil
  · decide +kernel

/-- A name with a sign in its first letters is foreign if these are not those of a data name. -/
theorem isForeign_append {word : List Char} (ha : isAscii word = true)
    (hd : (small word).head? ≠ some 'd') (hs : (small word).any (!·.isAlphanum) = true)
    (rest : List Char) : isForeign (Text.lowercase (word ++ rest)) = true := by
  have hascii : ∀ c ∈ word, c.toNat < 0x80 := by simpa [isAscii] using ha
  obtain ⟨t, ht, -⟩ := Text.exists_lowercaseFrom_append hascii false rest
  have hprefix : dataLetters.isPrefixOf (small word ++ t) = false := by
    cases hw : small word with
    | nil => simp [hw] at hs
    | cons c r =>
      have hc : ('d' == c) = false := beq_eq_false_iff_ne.2 fun hc => hd (by rw [hw, ← hc]; rfl)
      rw [List.cons_append, dataLetters, List.isPrefixOf_cons_cons, hc, Bool.false_and]
  rw [Text.lowercase, ht, ← small, isForeign, hprefix, List.any_append, hs]
  rfl

theorem renames_of_mem {s : Schema} (hv : v ∈ s.vocabularies)
    (h : ∀ c ∈ property.toList, c.toNat < 0x80) : Renames property (v.attributeOf property) := by
  have hsmall := Text.lowercased_lowercased_of_ascii h
  have hmem : v = xml ∨ v = xlink ∨ v = xmlns ∨ v = aria ∨ v = html ∨ v = svg := by
    cases s <;> simp only [Schema.vocabularies, List.mem_cons, List.not_mem_nil] at hv <;> tauto
  rcases hmem with rfl | rfl | rfl | rfl | rfl | rfl
  · refine renames_attributeOf (.inr ?_) (by simp [xml])
    rw [Text.lowercased, String.toList_ofList, xml, String.toList_append]
    exact isForeign_append (by decide) (by decide) (by decide) _
  · refine renames_attributeOf (.inr ?_) (by simp [xlink])
    rw [Text.lowercased, String.toList_ofList, xlink, String.toList_append]
    exact isForeign_append (by decide) (by decide) (by decide) _
  · exact renames_attributeOf (.inl hsmall) renames_exceptions_xmlns
  · refine renames_attributeOf ?_ (by simp [aria])
    simp only [aria]
    split
    · exact .inl rfl
    · right
      rw [Text.lowercased, String.toList_ofList, String.toList_append]
      exact isForeign_append (by decide) (by decide) (by decide) _
  · exact renames_attributeOf (.inl hsmall) renames_exceptions_html
  · refine renames_attributeOf ?_ renames_exceptions_svg
    simp only [svg]
    split
    · exact .inl hsmall
    · exact .inl rfl

end Vocabulary

/-! ## What a known name means -/

namespace Schema

variable {s : Schema} {i : Info} {name : String}

theorem mem_infos_iff : i ∈ s.infos ↔
    ∃ v ∈ s.vocabularies, ∃ e ∈ v.properties, v.info e.1 e.2 = i := by
  simp only [infos, Vocabulary.infos, List.mem_flatMap, List.mem_map]

theorem lowercased_infos (s : Schema) :
    s.infos.map (fun i => Text.lowercased i.property) =
      s.properties.map fun e => Text.lowercased e.1 := by
  simp [infos, Vocabulary.infos, properties, List.map_flatMap, Vocabulary.info, Function.comp_def]

theorem exists_mem_properties (hi : i ∈ s.infos) : ∃ e ∈ s.properties, e.1 = i.property := by
  obtain ⟨v, hv, e, he, rfl⟩ := mem_infos_iff.1 hi
  exact ⟨e, List.mem_flatMap.2 ⟨v, hv, he⟩, rfl⟩

theorem renames_of_mem_infos (hi : i ∈ s.infos) : Renames i.property i.attributeName := by
  obtain ⟨v, hv, e, he, rfl⟩ := mem_infos_iff.1 hi
  exact Vocabulary.renames_of_mem hv (s.namesFit.ascii e (List.mem_flatMap.2 ⟨v, hv, he⟩))

theorem isForeign_property (hi : i ∈ s.infos) :
    isForeign (Text.lowercased i.property).toList = false := by
  obtain ⟨e, he, hn⟩ := exists_mem_properties hi
  exact hn ▸ s.namesFit.native e he

theorem eq_of_lowercased_eq {j : Info} (hi : i ∈ s.infos) (hj : j ∈ s.infos)
    (h : Text.lowercased i.property = Text.lowercased j.property) : i = j := by
  have hnodup := s.namesFit.nodup
  rw [← lowercased_infos] at hnodup
  exact List.inj_on_of_nodup_map hnodup hi hj h

theorem separated (s : Schema) : Separated s.infos := by
  intro i hi j hj hname
  have hp : Text.lowercased i.property = Text.lowercased j.property := by
    cases List.mem_cons.1 hname with
    | inl hattr =>
      cases renames_of_mem_infos hj with
      | inl he => rw [hattr, he]
      | inr hf =>
        rw [← hattr, isForeign_property hi] at hf
        cases hf
    | inr hprop => exact List.mem_singleton.1 hprop
  exact eq_of_lowercased_eq hi hj hp

theorem table_eq (s : Schema) : s.table = .ofVocabularies s.vocabularies := by
  cases s with
  | html => rw [table, htmlTable]
  | svg => rw [table, svgTable]

theorem mem_infos_of_get? (h : s.table.get? name = some i) :
    i ∈ s.infos ∧ name ∈ i.claimedNames := by
  rw [table_eq] at h
  exact Table.mem_claimedNames s.separated h

theorem get?_lowercased_property (hi : i ∈ s.infos) :
    s.table.get? (Text.lowercased i.property) = some i := by
  rw [table_eq]
  exact Table.get?_lowercased_property s.separated hi

theorem language_mem_infos {e : String × Shape} (he : e ∈ s.language.properties) :
    s.language.info e.1 e.2 ∈ s.infos := by
  refine mem_infos_iff.2 ⟨s.language, ?_, e, he, rfl⟩
  cases s <;> simp [language, vocabularies]

/-- A property of the language is found whatever letters of its name are capitals. -/
theorem resolve_eq {e : String × Shape} (he : e ∈ s.language.properties)
    (hn : Text.lowercased name = Text.lowercased e.1) :
    s.resolve name = s.language.info e.1 e.2 := by
  have hget := get?_lowercased_property (language_mem_infos he)
  have hp : (s.language.info e.1 e.2).property = e.1 := rfl
  rw [hp, ← hn] at hget
  rw [resolve, hget]

def dataInfo (s : Schema) : Info := s.language.info s.dataProperty .plain

theorem dataInfo_mem (s : Schema) : s.dataInfo ∈ s.infos := by
  apply language_mem_infos (e := (s.dataProperty, .plain))
  cases s <;> decide +kernel

theorem toList_lowercased_dataProperty (s : Schema) :
    (Text.lowercased s.dataProperty).toList = s.dataName := by
  obtain ⟨e, he, hep⟩ := exists_mem_properties s.dataInfo_mem
  have hp : e.1 = s.dataProperty := hep
  exact Text.toList_lowercased_of_ascii (hp ▸ s.namesFit.ascii e he)

/-- Only one property has a name that starts as data names do. -/
theorem get?_of_data (h : s.table.get? name = some i) (hp : dataLetters <+: name.toList) :
    i = s.dataInfo ∧ name = Text.lowercased i.property := by
  obtain ⟨hi, hname⟩ := mem_infos_of_get? h
  have hn : name = Text.lowercased i.property := by
    cases List.mem_cons.1 hname with
    | inl hattr =>
      cases renames_of_mem_infos hi with
      | inl he => rw [hattr, he]
      | inr hf =>
        rw [← hattr, isForeign, List.isPrefixOf_iff_prefix.2 hp] at hf
        cases hf
    | inr hprop => exact List.mem_singleton.1 hprop
  obtain ⟨e, he, hep⟩ := exists_mem_properties hi
  have hdata := s.namesFit.data e he (by rw [hep, ← hn]; exact hp)
  refine ⟨eq_of_lowercased_eq hi s.dataInfo_mem (String.toList_injective ?_), hn⟩
  exact hep ▸ hdata.trans s.toList_lowercased_dataProperty.symm

theorem resolve_data (hp : dataLetters <+: (Text.lowercased name).toList)
    (hn : Text.lowercased name ≠ Text.lowercased s.dataProperty) :
    s.resolve name = unlisted name := by
  rw [resolve]
  cases h : s.table.get? (Text.lowercased name) with
  | none => rfl
  | some i =>
    obtain ⟨rfl, hname⟩ := get?_of_data h hp
    exact absurd hname hn

theorem shape_unlisted (name : String) : (unlisted name).shape = {} := by
  unfold unlisted
  split <;> rfl

/-- The property that holds styles is no flag. -/
theorem boolean_style (h : Text.lowercased (s.resolve name).property = "style") :
    (s.resolve name).shape.boolean = false := by
  have hstyle : ("style", .plain) ∈ s.language.properties := by cases s <;> decide +kernel
  rw [resolve] at h ⊢
  cases hi : s.table.get? (Text.lowercased name) with
  | none => simp only [shape_unlisted]
  | some i =>
    simp only [hi] at h ⊢
    have hsmall : Text.lowercased "style" = "style" := by decide +kernel
    rw [eq_of_lowercased_eq (mem_infos_of_get? hi).1 (language_mem_infos hstyle)
      (h.trans hsmall.symm)]
    rfl

end Schema

end JsxAttributes

import Typestate.Proofs.Grammar.Remainder

/-!
# Names of declared fields

A field of a declaration has the name that is written before its type: the name is a word among the
tokens between the braces of the declaration. The fields of a tuple have no names.
-/

namespace Typestate.Grammar

open Grammar.Parser

/-! ### Lists of fields -/

section Lists

variable {A : Type} {parser : Parser A} [parser.TakesFront] {tokens : List Token}
  {found : Found (List A)}

/-- Each construct of a list is found somewhere in its tokens. -/
theorem commaListAtMost_eq_ok {rounds : ℕ} (h : commaListAtMost parser rounds tokens = .ok found) :
    ∀ value ∈ found.value, ∃ start item, start <:+ tokens ∧ parser start = .ok item ∧
      item.value = value := by
  induction rounds generalizing tokens found with
  | zero => contradiction
  | succ rounds ih =>
    rw [commaListAtMost, ahead_bind] at h
    split at h
    · obtain rfl := Except.ok.inj h
      exact fun value hvalue => absurd hvalue List.not_mem_nil
    · obtain ⟨first, others, hfirst, hothers, rfl⟩ := bind_eq_ok.mp h
      have hhere : ∃ start item, start <:+ tokens ∧ parser start = .ok item ∧
          item.value = first.value := ⟨tokens, first, List.suffix_rfl, hfirst, rfl⟩
      rw [ahead_bind] at hothers
      split at hothers
      · obtain rfl := Except.ok.inj hothers
        intro value hvalue
        rw [List.mem_singleton.mp hvalue]
        exact hhere
      · obtain ⟨comma, tail, hcomma, htail, rfl⟩ := bind_eq_ok.mp hothers
        obtain ⟨items, whole, hitems, hwhole, rfl⟩ := bind_eq_ok.mp htail
        obtain rfl := Except.ok.inj hwhole
        intro value hvalue
        rcases List.mem_cons.mp hvalue with rfl | hvalue
        · exact hhere
        · obtain ⟨start, item, hstart, hitem⟩ := ih hitems value hvalue
          exact ⟨start, item, (hstart.trans (rest_suffix hcomma)).trans (rest_suffix hfirst),
            hitem⟩

theorem commaList_eq_ok (h : commaList parser tokens = .ok found) :
    ∀ value ∈ found.value, ∃ start item, start <:+ tokens ∧ parser start = .ok item ∧
      item.value = value := by
  rw [commaList, ahead_bind] at h
  exact commaListAtMost_eq_ok h

end Lists

/-! ### Fields -/

variable {sorts : Sorts}

/-- However the type of a field is read, the field has the name that is read before. -/
theorem name_of_typed {attributes : List Meta} {visibility : List Node} {name : String}
    {isNested : List Token → Bool} {nested plain : Parser Node} {tokens : List Token}
    {found : Found Field}
    (h : (do
      let _ ← operator ":"
      if isNested (← ahead) then return ⟨attributes, visibility, some name, ← nested⟩
      else return ⟨attributes, visibility, some name, ← plain⟩ : Parser Field) tokens =
        .ok found) : found.value.name = some name := by
  obtain ⟨colon, typed, -, htyped, rfl⟩ := bind_eq_ok.mp h
  rw [ahead_bind] at htyped
  split at htyped
  · obtain ⟨type, last, -, hlast, rfl⟩ := bind_eq_ok.mp htyped
    rw [← Except.ok.inj hlast]
  · obtain ⟨type, last, -, hlast, rfl⟩ := bind_eq_ok.mp htyped
    rw [← Except.ok.inj hlast]

/-- A field with a name has one that stands among its tokens. -/
theorem namedFieldOver_eq_ok {nested : Parser Unit} {tokens : List Token} {found : Found Field}
    (h : namedFieldOver sorts nested tokens = .ok found) :
    ∃ name, found.value.name = some name ∧ .word name ∈ tokens := by
  obtain ⟨attributes, rest, hattributes, hrest, rfl⟩ := bind_eq_ok.mp h
  obtain ⟨visible, more, hvisible, hmore, rfl⟩ := bind_eq_ok.mp hrest
  have hsuffix : visible.rest <:+ tokens := (rest_suffix hvisible).trans (rest_suffix hattributes)
  rw [ahead_bind] at hmore
  cases hunnamed : isWord "_" visible.rest with
  | true =>
    simp only [hunnamed] at hmore
    obtain ⟨word, typed, hword, htyped, rfl⟩ := bind_eq_ok.mp hmore
    have hname : typed.value.name = some word.value := name_of_typed htyped
    exact ⟨word.value, hname, hsuffix.subset (anyWord_eq_ok hword ▸ List.mem_cons_self)⟩
  | false =>
    simp only [hunnamed] at hmore
    obtain ⟨word, typed, hword, htyped, rfl⟩ := bind_eq_ok.mp hmore
    have hname : typed.value.name = some word.value := name_of_typed htyped
    exact ⟨word.value, hname, hsuffix.subset (identifier_eq_ok hword ▸ List.mem_cons_self)⟩

theorem namedField_eq_ok {tokens : List Token} {found : Found Field}
    (h : namedField sorts tokens = .ok found) :
    ∃ name, found.value.name = some name ∧ .word name ∈ tokens := by
  rw [namedField, ahead_bind] at h
  exact namedFieldOver_eq_ok h

/-- A field of a tuple has no name. -/
theorem tupleField_eq_ok {tokens : List Token} {found : Found Field}
    (h : tupleField sorts tokens = .ok found) : found.value.name = none := by
  obtain ⟨attributes, rest, -, hrest, rfl⟩ := bind_eq_ok.mp h
  obtain ⟨visible, more, -, hmore, rfl⟩ := bind_eq_ok.mp hrest
  obtain ⟨type, last, -, hlast, rfl⟩ := bind_eq_ok.mp hmore
  rw [← Except.ok.inj hlast]

variable [sorts.TakesFront]

instance (levels : ℕ) : (nestedFields sorts levels).TakesFront := by
  cases levels with
  | zero =>
    unfold nestedFields
    infer_instance
  | succ levels =>
    unfold nestedFields
    infer_instance

instance {nested : Parser Unit} [nested.TakesFront] :
    (namedFieldOver sorts nested).TakesFront := by
  unfold namedFieldOver
  refine takesFront_bind fun attributes => takesFront_bind fun visibility =>
    takesFront_bind fun tokens => ?_
  cases isWord "_" tokens with
  | true => exact takesFront_bind fun name => inferInstance
  | false => exact takesFront_bind fun name => inferInstance

instance : (namedField sorts).TakesFront := by
  unfold namedField
  infer_instance

instance : (tupleField sorts).TakesFront := by
  unfold tupleField
  infer_instance

/-- The names of the fields of a struct are words between its braces. -/
theorem structFields_eq_ok {tokens : List Token} {found : Found Fields}
    (h : structFields sorts tokens = .ok found) {field : Field}
    (hfield : field ∈ found.value.toList) {name : String} (hname : field.name = some name) :
    ∃ body, .group .brace body ∈ tokens ∧ .word name ∈ body := by
  rw [structFields, ahead_bind] at h
  obtain ⟨conditions, rest, hconditions, hrest, rfl⟩ := bind_eq_ok.mp h
  rw [ahead_bind] at hrest
  split at hrest
  · obtain ⟨fields, more, hfields, hmore, rfl⟩ := bind_eq_ok.mp hrest
    obtain ⟨others, closed, -, hclosed, rfl⟩ := bind_eq_ok.mp hmore
    obtain ⟨semicolon, last, -, hlast, rfl⟩ := bind_eq_ok.mp hclosed
    rw [← Except.ok.inj hlast] at hfield
    obtain ⟨body, inner, -, hinner, hvalue⟩ := inside_eq_ok hfields
    obtain ⟨start, item, -, hitem, rfl⟩ := commaList_eq_ok hinner field (hvalue ▸ hfield)
    exact absurd ((tupleField_eq_ok hitem).symm.trans hname) nofun
  · split at hrest
    · obtain ⟨fields, last, hfields, hlast, rfl⟩ := bind_eq_ok.mp hrest
      rw [← Except.ok.inj hlast] at hfield
      obtain ⟨body, inner, htokens, hinner, hvalue⟩ := inside_eq_ok hfields
      obtain ⟨start, item, hstart, hitem, rfl⟩ := commaList_eq_ok hinner field (hvalue ▸ hfield)
      obtain ⟨found, hfound, hword⟩ := namedField_eq_ok hitem
      obtain rfl := Option.some.inj (hfound.symm.trans hname)
      refine ⟨body, (rest_suffix hconditions).subset ?_, hstart.subset hword⟩
      rw [htokens]
      exact List.mem_cons_self
    · obtain ⟨semicolon, last, -, hlast, rfl⟩ := bind_eq_ok.mp hrest
      rw [← Except.ok.inj hlast] at hfield
      exact absurd hfield List.not_mem_nil

/-- The names of the fields of a declared struct are words between braces of the declaration. -/
theorem word_mem_of_readDeclaration? {tokens : List Token} {declaration : Declaration}
    {fields : Fields} (h : readDeclaration? tokens = some declaration)
    (hshape : declaration.shape = .struct fields) {field : Field} (hfield : field ∈ fields.toList)
    {name : String} (hname : field.name = some name) :
    ∃ body, .group .brace body ∈ tokens ∧ .word name ∈ body := by
  obtain ⟨found, hfound, rfl⟩ := all_eq_ok (toOption_eq_some.mp h)
  obtain ⟨attributes, visibly, hattributes, hvisibly, rfl⟩ := bind_eq_ok.mp hfound
  obtain ⟨visible, worded, hvisible, hworded, rfl⟩ := bind_eq_ok.mp hvisibly
  obtain ⟨word, named, hword, hnamed, rfl⟩ := bind_eq_ok.mp hworded
  obtain ⟨type, generic, htype, hgeneric, rfl⟩ := bind_eq_ok.mp hnamed
  obtain ⟨parameters, shaped, hparameters, hshaped, rfl⟩ := bind_eq_ok.mp hgeneric
  have hsuffix : parameters.rest <:+ tokens :=
    ((((rest_suffix hparameters).trans (rest_suffix htype)).trans (rest_suffix hword)).trans
      (rest_suffix hvisible)).trans (rest_suffix hattributes)
  split at hshaped
  · obtain ⟨declared, last, hdeclared, hlast, rfl⟩ := bind_eq_ok.mp hshaped
    obtain rfl := Except.ok.inj hlast
    obtain rfl := Shape.struct.inj hshape
    obtain ⟨body, hbody, hword⟩ := structFields_eq_ok hdeclared hfield hname
    exact ⟨body, hsuffix.subset hbody, hword⟩
  · split at hshaped
    · obtain ⟨cases, last, -, hlast, rfl⟩ := bind_eq_ok.mp hshaped
      obtain rfl := Except.ok.inj hlast
      contradiction
    · split at hshaped
      · obtain ⟨conditions, declared, -, hdeclared, rfl⟩ := bind_eq_ok.mp hshaped
        obtain ⟨fields, last, -, hlast, rfl⟩ := bind_eq_ok.mp hdeclared
        obtain rfl := Except.ok.inj hlast
        contradiction
      · contradiction

end Typestate.Grammar

import ShopTables.Json.Outline

/-!
# The grammar without its bounds

Each reader of an outline returns what is left together with the proof that it is shorter. Here
are the same readers without that proof, with one equation for each (`value?_eq`, `items?_eq`,
`members?_eq`): what the first character after the blanks decides. Proofs about reading use these
equations and never open the readers.
-/

namespace ShopTables.Json.Outline

/-- One value and what follows it, without the bound on the latter. -/
def value? (input : Input) : Option (Outline × Input) :=
  (readValue input).map fun p => (p.1, p.2.1)

/-- The items of an array and what follows it. -/
def items? (input : Input) : Option (List Outline × Input) :=
  (readItems input).map fun p => (p.1, p.2.1)

/-- The members of an object and what follows it. -/
def members? (input : Input) : Option (List (List Piece × Outline) × Input) :=
  (readMembers input).map fun p => (p.1, p.2.1)

theorem value?_eq (input : Input) :
    value? input =
      match skipBlanks input with
      | some '[' :: rest =>
        match skipBlanks rest with
        | some ']' :: r => some (.array [], r)
        | _ => (items? rest).map fun p => (.array p.1, p.2)
      | some '{' :: rest =>
        match skipBlanks rest with
        | some '}' :: r => some (.object [], r)
        | _ => (members? rest).map fun p => (.object p.1, p.2)
      | some '"' :: rest => (readString rest).map fun p => (.string p.1, p.2)
      | some 'n' :: rest => (readWord "ull".toList rest).map fun r => (.null, r)
      | some 't' :: rest => (readWord "rue".toList rest).map fun r => (.bool true, r)
      | some 'f' :: rest => (readWord "alse".toList rest).map fun r => (.bool false, r)
      | some '-' :: rest => (readNumber true rest).map fun p => (.number p.1, p.2)
      | other => (readNumber false other).map fun p => (.number p.1, p.2) := by
  rw [value?, readValue]
  split
  case h_1 rest hi =>
    simp only [hi]
    split
    case h_1 r hc => simp only [hc, Option.map_some]
    case h_2 hc =>
      rw [items?]
      cases readItems rest <;> dsimp only <;> split
      · exact absurd ‹_› (hc _)
      · rfl
      · exact absurd ‹_› (hc _)
      · rfl
  case h_2 rest hi =>
    simp only [hi]
    split
    case h_1 r hc => simp only [hc, Option.map_some]
    case h_2 hc =>
      rw [members?]
      cases readMembers rest <;> dsimp only <;> split
      · exact absurd ‹_› (hc _)
      · rfl
      · exact absurd ‹_› (hc _)
      · rfl
  case h_3 rest hi =>
    simp only [hi]
    split <;> rename_i h <;> simp only [h, Option.map_some, Option.map_none]
  case h_4 rest hi =>
    simp only [hi]
    split <;> rename_i h <;> simp only [h, Option.map_some, Option.map_none]
  case h_5 rest hi =>
    simp only [hi]
    split <;> rename_i h <;> simp only [h, Option.map_some, Option.map_none]
  case h_6 rest hi =>
    simp only [hi]
    split <;> rename_i h <;> simp only [h, Option.map_some, Option.map_none]
  case h_7 rest hi =>
    simp only [hi]
    split <;> rename_i h <;> simp only [h, Option.map_some, Option.map_none]
  case h_8 =>
    split
    · split <;> simp_all
    · split <;> simp_all

theorem items?_eq (input : Input) :
    items? input =
      match value? input with
      | none => none
      | some (v, r₁) =>
        match skipBlanks r₁ with
        | some ']' :: r => some ([v], r)
        | some ',' :: r => (items? r).map fun p => (v :: p.1, p.2)
        | _ => none := by
  rw [items?, readItems, value?]
  cases readValue input with
  | none => rfl
  | some p =>
    obtain ⟨v, r₁, h₁⟩ := p
    dsimp only [Option.map_some]
    split
    case h_1 r hi => simp only [hi, Option.map_some]
    case h_2 r hi =>
      simp only [hi]
      rw [items?]
      cases readItems r <;> rfl
    case h_3 h₁ h₂ =>
      split
      · exact absurd ‹_› (h₁ _)
      · exact absurd ‹_› (h₂ _)
      · rfl

theorem members?_eq (input : Input) :
    members? input =
      match skipBlanks input with
      | some '"' :: rest =>
        match readString rest with
        | none => none
        | some (key, r₁) =>
          match skipBlanks r₁ with
          | some ':' :: r₂ =>
            match value? r₂ with
            | none => none
            | some (v, r₃) =>
              match skipBlanks r₃ with
              | some '}' :: r => some ([(key, v)], r)
              | some ',' :: r => (members? r).map fun p => ((key, v) :: p.1, p.2)
              | _ => none
          | _ => none
      | _ => none := by
  rw [members?, readMembers]
  split
  case h_2 hi =>
    split
    · exact absurd ‹_› (hi _)
    · rfl
  case h_1 rest hi =>
    simp only [hi]
    split
    case h_1 hk => simp only [hk, Option.map_none]
    case h_2 key r₁ hk =>
      simp only [hk]
      split
      case h_2 hj =>
        split
        · exact absurd ‹_› (hj _)
        · rfl
      case h_1 r₂ hj =>
        simp only [hj]
        rw [value?]
        cases readValue r₂ with
        | none => rfl
        | some p =>
          obtain ⟨v, r₃, h₃⟩ := p
          dsimp only [Option.map_some]
          split
          case h_1 r hl => simp only [hl, Option.map_some]
          case h_2 r hl =>
            simp only [hl]
            rw [members?]
            cases readMembers r <;> rfl
          case h_3 h₁ h₂ =>
            split
            · exact absurd ‹_› (h₁ _)
            · exact absurd ‹_› (h₂ _)
            · rfl

theorem read?_eq (bytes : List UInt8) :
    read? bytes =
      match value? (Text.Utf8.decode bytes) with
      | some (v, r) => if (skipBlanks r).isEmpty then some v else none
      | none => none := by
  rw [read?, value?]
  cases readValue (Text.Utf8.decode bytes) <;> rfl

/-! ### One lemma for each way to begin -/

theorem skipBlanks_cons {c : Char} (h : isBlank (some c) = false) (rest : Input) :
    skipBlanks (some c :: rest) = some c :: rest := by
  rw [skipBlanks, List.dropWhile_cons, if_neg (by simp [h])]

theorem value?_quote (rest : Input) :
    value? (some '"' :: rest) = (readString rest).map fun p => (.string p.1, p.2) := by
  rw [value?_eq, skipBlanks_cons (by decide)]
  rfl

theorem value?_minus (rest : Input) :
    value? (some '-' :: rest)
      = (readNumber true rest).map fun p => (.number p.1, p.2) := by
  rw [value?_eq, skipBlanks_cons (by decide)]
  rfl

theorem value?_digit {c : Char} (hc : c.isDigit = true) (rest : Input) :
    value? (some c :: rest)
      = (readNumber false (some c :: rest)).map fun p => (.number p.1, p.2) := by
  have hblank : isBlank (some c) = false := by
    simp only [isBlank, Bool.or_eq_false_iff, beq_eq_false_iff_ne]
    refine ⟨⟨⟨?_, ?_⟩, ?_⟩, ?_⟩ <;> rintro rfl <;> exact absurd hc (by decide)
  rw [value?_eq, skipBlanks_cons hblank]
  split
  case h_8 => rfl
  all_goals
    rename_i heq
    cases heq
    exact absurd hc (by decide)

theorem value?_null (rest : Input) :
    value? ("null".toList.map some ++ rest) = some (.null, rest) := by
  show value? (some 'n' :: _) = _
  rw [value?_eq, skipBlanks_cons (by decide)]
  rfl

theorem value?_bool (b : Bool) (rest : Input) :
    value? ((if b then "true".toList else "false".toList).map some ++ rest)
      = some (.bool b, rest) := by
  cases b
  · show value? (some 'f' :: _) = _
    rw [value?_eq, skipBlanks_cons (by decide)]
    rfl
  · show value? (some 't' :: _) = _
    rw [value?_eq, skipBlanks_cons (by decide)]
    rfl

theorem value?_bracket (rest : Input) :
    value? (some '[' :: rest) =
      match skipBlanks rest with
      | some ']' :: r => some (.array [], r)
      | _ => (items? rest).map fun p => (.array p.1, p.2) := by
  rw [value?_eq, skipBlanks_cons (by decide)]
  rfl

theorem value?_brace (rest : Input) :
    value? (some '{' :: rest) =
      match skipBlanks rest with
      | some '}' :: r => some (.object [], r)
      | _ => (members? rest).map fun p => (.object p.1, p.2) := by
  rw [value?_eq, skipBlanks_cons (by decide)]
  rfl

/-! ### Arrays and objects -/

theorem value?_array {input rest : Input} {os : List Outline}
    (h : items? input = some (os, rest)) : value? (some '[' :: input) = some (.array os, rest) := by
  rw [value?_bracket]
  split
  -- No item begins with the closing bracket.
  case h_1 r hr =>
    have hnone : value? input = none := by
      rw [value?_eq, hr]
      rfl
    rw [items?_eq, hnone] at h
    cases h
  case h_2 => rw [h, Option.map_some]

theorem value?_object {input rest : Input} {ms : List (List Piece × Outline)}
    (h : members? input = some (ms, rest)) :
    value? (some '{' :: input) = some (.object ms, rest) := by
  rw [value?_brace]
  split
  case h_1 r hr =>
    rw [members?_eq, hr] at h
    cases h
  case h_2 => rw [h, Option.map_some]

theorem items?_last {input rest : Input} {o : Outline}
    (h : value? input = some (o, some ']' :: rest)) : items? input = some ([o], rest) := by
  rw [items?_eq, h]
  dsimp only
  rw [skipBlanks_cons (by decide)]
  rfl

theorem items?_cons {input more rest : Input} {o : Outline} {os : List Outline}
    (h : value? input = some (o, some ',' :: more)) (hmore : items? more = some (os, rest)) :
    items? input = some (o :: os, rest) := by
  rw [items?_eq, h]
  dsimp only
  rw [skipBlanks_cons (by decide)]
  show (items? more).map _ = _
  rw [hmore, Option.map_some]

theorem members?_last {input r₂ rest : Input} {key : List Piece} {o : Outline}
    (hkey : readString input = some (key, some ':' :: r₂))
    (h : value? r₂ = some (o, some '}' :: rest)) :
    members? (some '"' :: input) = some ([(key, o)], rest) := by
  rw [members?_eq, skipBlanks_cons (by decide)]
  simp only [hkey, skipBlanks_cons (show isBlank (some ':') = false by decide), h,
    skipBlanks_cons (show isBlank (some '}') = false by decide)]

theorem members?_cons {input r₂ more rest : Input} {key : List Piece} {o : Outline}
    {ms : List (List Piece × Outline)} (hkey : readString input = some (key, some ':' :: r₂))
    (h : value? r₂ = some (o, some ',' :: more)) (hmore : members? more = some (ms, rest)) :
    members? (some '"' :: input) = some ((key, o) :: ms, rest) := by
  rw [members?_eq, skipBlanks_cons (by decide)]
  simp only [hkey, skipBlanks_cons (show isBlank (some ':') = false by decide), h,
    skipBlanks_cons (show isBlank (some ',') = false by decide), hmore, Option.map_some]

end ShopTables.Json.Outline

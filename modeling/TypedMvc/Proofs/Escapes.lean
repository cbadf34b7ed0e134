import Mathlib.Algebra.Group.Nat.Even
import TypedMvc.Proofs.Quotation

namespace TypedMvc.CSharp

variable {cs body content value rest : List Char} {c : Char}

def replaced (old : Char) (new cs : List Char) : List Char :=
  cs.flatMap fun c => if c = old then new else [c]

theorem replaced_cons (old : Char) (new : List Char) (c : Char) (cs : List Char) :
    replaced old new (c :: cs) = (if c = old then new else [c]) ++ replaced old new cs := rfl

theorem replaced_append (old : Char) (new front back : List Char) :
    replaced old new (front ++ back) = replaced old new front ++ replaced old new back := List.flatMap_append

-- The backslashes that come in with the quotes come too late to be doubled.
theorem replaced_replaced (cs : List Char) :
    replaced '"' ['\\','"'] (replaced '\\' ['\\','\\'] cs) = escape cs := by
  induction cs with
  | nil => rfl
  | cons c rest ih =>
    rw [replaced_cons,replaced_append,ih,escape]
    by_cases slash : c = '\\'
    · rw [if_pos slash,if_pos (.inr slash),slash]
      rfl
    · rw [if_neg slash]
      by_cases mark : c = '"'
      · rw [if_pos (.inl mark),mark]
        rfl
      · rw [if_neg (not_or.mpr ⟨mark,slash⟩),replaced_cons,if_neg mark]
        rfl

-- In the other order they are doubled, and the quote behind them is bare again.
example : replaced '\\' ['\\','\\'] (replaced '"' ['\\','"'] ['"']) = ['\\','\\','"'] := by decide

def slashesAtEnd (cs : List Char) : Nat := (cs.reverse.takeWhile (· == '\\')).length

theorem slashesAtEnd_le (cs : List Char) : slashesAtEnd cs ≤ cs.length := by
  rw [← List.length_reverse]
  exact (List.takeWhile_sublist _).length_le

theorem slashesAtEnd_cons (c : Char) (cs : List Char) :
    slashesAtEnd (c :: cs) = slashesAtEnd cs + if c = '\\' ∧ slashesAtEnd cs = cs.length then 1 else 0 := by
  have whole : (cs.reverse.takeWhile (· == '\\')).length = cs.reverse.length ↔ slashesAtEnd cs = cs.length := by
    rw [List.length_reverse,slashesAtEnd]
  rw [slashesAtEnd,List.reverse_cons,List.takeWhile_append]
  by_cases full : slashesAtEnd cs = cs.length
  · rw [if_pos (whole.mpr full),List.length_append,List.length_reverse,← full]
    by_cases slash : c = '\\' <;> simp [slash]
  · rw [if_neg (mt whole.mp full),if_neg fun both => full both.2]
    rfl

theorem even_slashesAtEnd_slash : Even (slashesAtEnd ('\\' :: c :: cs)) ↔ Even (slashesAtEnd cs) := by
  by_cases full : c = '\\' ∧ slashesAtEnd cs = cs.length
  · have both : '\\' = '\\' ∧ slashesAtEnd cs + 1 = cs.length + 1 := ⟨rfl,congrArg (· + 1) full.2⟩
    rw [slashesAtEnd_cons,slashesAtEnd_cons,if_pos full,List.length_cons,if_pos both,Nat.even_add_one,Nat.even_add_one,
      not_not]
  · have short := slashesAtEnd_le cs
    have ended : ¬ ('\\' = '\\' ∧ slashesAtEnd cs + 0 = cs.length + 1) := by omega
    rw [slashesAtEnd_cons,slashesAtEnd_cons,if_neg full,List.length_cons,if_neg ended]
    rfl

-- The text between the opening quote and the first quote that the backslashes before it leave bare.
structure Closed (body : List Char) : Prop where
  bare : Even (slashesAtEnd body)
  first : ∀ early later, body = early ++ '"' :: later → ¬ Even (slashesAtEnd early)

theorem closed_nil : Closed [] := by
  refine ⟨.zero,?_⟩
  intro early later parts
  cases early <;> cases parts

theorem not_closed_quote : ¬ Closed ('"' :: cs) :=
  fun closed => closed.first [] cs rfl .zero

theorem not_closed_slash : ¬ Closed ['\\'] := by
  intro closed
  exact absurd closed.bare (by decide)

theorem closed_plain (mark : c ≠ '"') (slash : c ≠ '\\') : Closed (c :: cs) ↔ Closed cs := by
  have same : ∀ cs, slashesAtEnd (c :: cs) = slashesAtEnd cs := by
    intro cs
    rw [slashesAtEnd_cons,if_neg fun both => slash both.1]
    rfl
  constructor
  · intro closed
    refine ⟨same cs ▸ closed.bare,?_⟩
    rintro early later rfl
    exact same early ▸ closed.first (c :: early) later rfl
  · intro closed
    refine ⟨(same cs).symm ▸ closed.bare,?_⟩
    intro early later parts
    cases early with
    | nil => exact absurd (List.cons.inj parts).1 mark
    | cons d early =>
      obtain ⟨rfl,behind⟩ := List.cons.inj parts
      exact (same early).symm ▸ closed.first early later behind

theorem closed_slash : Closed ('\\' :: c :: cs) ↔ Closed cs := by
  constructor
  · intro closed
    refine ⟨even_slashesAtEnd_slash.mp closed.bare,?_⟩
    rintro early later rfl
    exact mt even_slashesAtEnd_slash.mpr (closed.first ('\\' :: c :: early) later rfl)
  · intro closed
    refine ⟨even_slashesAtEnd_slash.mpr closed.bare,?_⟩
    -- Before a quote there is nothing, the backslash alone, or both characters.
    intro early later parts
    match early with
    | [] => exact absurd (List.cons.inj parts).1 (by decide)
    | [d] =>
      obtain ⟨rfl,_⟩ := List.cons.inj parts
      decide
    | d :: e :: early =>
      obtain ⟨slash,behind⟩ := List.cons.inj parts
      obtain ⟨_,rest⟩ := List.cons.inj behind
      rw [← slash]
      exact mt even_slashesAtEnd_slash.mp (closed.first early later rest)

def unescaped : List Char → List Char
  | [] => []
  | '\\' :: c :: rest => c :: unescaped rest
  | c :: rest => c :: unescaped rest

theorem unescaped_plain (slash : c ≠ '\\') (cs : List Char) : unescaped (c :: cs) = c :: unescaped cs := by
  simp [unescaped,slash]

theorem readContent_plain (mark : c ≠ '"') (slash : c ≠ '\\') (content : List Char) :
    readContent (c :: content) = (readContent content).map fun read => (c :: read.1,read.2) := by
  simp [readContent,slash]

-- The reader takes a body apart as its value is taken from it, and what is left behind each piece is closed again; so it
-- comes to the quote behind the body and has not stopped before.
theorem readContent_of_closed (closed : Closed body) (rest : List Char) :
    readContent (body ++ '"' :: rest) = some (unescaped body,rest) := by
  fun_induction unescaped body with
  | case1 => rfl
  | case2 c inner ih =>
    rw [List.cons_append,List.cons_append,readContent,ih (closed_slash.mp closed)]
    rfl
  | case3 c inner single ih =>
    have mark : c ≠ '"' := by
      rintro rfl
      exact not_closed_quote closed
    have slash : c ≠ '\\' := by
      rintro rfl
      cases inner with
      | nil => exact not_closed_slash closed
      | cons d inner => exact single d inner rfl rfl
    rw [List.cons_append,readContent_plain mark slash,ih ((closed_plain mark slash).mp closed)]
    rfl

theorem closed_of_readContent (read : readContent content = some (value,rest)) :
    ∃ body, Closed body ∧ content = body ++ '"' :: rest ∧ unescaped body = value := by
  fun_induction readContent content generalizing value with
  | case1 => cases read
  | case2 after =>
    cases read
    exact ⟨[],closed_nil,rfl,rfl⟩
  | case3 c content ih =>
    obtain ⟨⟨inner,_⟩,inside,parts⟩ := Option.map_eq_some_iff.mp read
    cases parts
    obtain ⟨body,closed,rfl,rfl⟩ := ih inside
    exact ⟨'\\' :: c :: body,closed_slash.mpr closed,rfl,rfl⟩
  | case4 => cases read
  | case5 c content mark single alone ih =>
    have slash : c ≠ '\\' := by
      rintro rfl
      cases content with
      | nil => exact alone rfl rfl
      | cons d content => exact single d content rfl rfl
    obtain ⟨⟨inner,_⟩,inside,parts⟩ := Option.map_eq_some_iff.mp read
    cases parts
    obtain ⟨body,closed,rfl,rfl⟩ := ih inside
    exact ⟨c :: body,(closed_plain mark slash).mpr closed,rfl,unescaped_plain slash body⟩

theorem readContent_exact : readContent content = some (value,rest) ↔
    ∃ body, Closed body ∧ content = body ++ '"' :: rest ∧ unescaped body = value := by
  refine ⟨closed_of_readContent,?_⟩
  rintro ⟨body,closed,rfl,rfl⟩
  exact readContent_of_closed closed rest

theorem readLiteral_exact {text : List Char} : readLiteral text = some (value,rest) ↔
    ∃ body, Closed body ∧ text = '"' :: (body ++ '"' :: rest) ∧ unescaped body = value := by
  constructor
  · intro read
    unfold readLiteral at read
    split at read
    · obtain ⟨body,closed,rfl,known⟩ := readContent_exact.mp read
      exact ⟨body,closed,rfl,known⟩
    · cases read
  · rintro ⟨body,closed,rfl,rfl⟩
    exact readContent_of_closed closed rest

theorem readLiteral_append {text : List Char} (read : readLiteral text = some (value,rest)) (more : List Char) :
    readLiteral (text ++ more) = some (value,rest ++ more) := by
  obtain ⟨body,closed,rfl,known⟩ := readLiteral_exact.mp read
  refine readLiteral_exact.mpr ⟨body,closed,?_,known⟩
  rw [List.cons_append,List.append_assoc,List.cons_append]

theorem readLiteral_quote (cs rest : List Char) : readLiteral (quote cs ++ rest) = some (cs,rest) := by
  rw [quote,List.cons_append,List.append_assoc]
  exact readContent_escape cs rest

theorem escape_closed (cs : List Char) : Closed (escape cs) ∧ unescaped (escape cs) = cs := by
  obtain ⟨body,closed,parts,known⟩ := readContent_exact.mp (readContent_escape cs [])
  rw [List.append_cancel_right parts]
  exact ⟨closed,known⟩

theorem quote_injective : Function.Injective quote := by
  intro left right same
  have read := readLiteral_quote left []
  rw [same,readLiteral_quote] at read
  exact (Prod.mk.inj (Option.some.inj read)).1.symm

-- A reader that has seen less than the literal is not done: it would have stopped there in the whole text as well.
theorem readLiteral_take {count : Nat} (short : count < (quote cs).length) (rest : List Char) :
    readLiteral ((quote cs ++ rest).take count) = none := by
  cases read : readLiteral ((quote cs ++ rest).take count) with
  | none => rfl
  | some early =>
    have whole := readLiteral_append read ((quote cs ++ rest).drop count)
    rw [List.take_append_drop,readLiteral_quote] at whole
    have sizes := congrArg List.length (Prod.mk.inj (Option.some.inj whole)).2
    rw [List.length_append,List.length_drop,List.length_append] at sizes
    omega

theorem contentValue?_within (read : contentValue? content = some value) : ∀ c ∈ value, endsCodeLine c = false := by
  fun_induction contentValue? content generalizing value with
  | case1 => cases read
  | case2 =>
    cases read
    simp
  | case3 | case5 | case6 => cases read
  | case4 c rest special ih =>
    obtain ⟨later,inside,rfl⟩ := Option.map_eq_some_iff.mp read
    have within := ih inside
    rcases special with rfl | rfl <;> exact List.forall_mem_cons.mpr ⟨by decide,within⟩
  | case7 c rest mark single plain ih =>
    obtain ⟨later,inside,rfl⟩ := Option.map_eq_some_iff.mp read
    exact List.forall_mem_cons.mpr ⟨eq_false_of_ne_true (not_or.mp plain).2,ih inside⟩

theorem literalValue?_quote_iff : literalValue? (quote cs) = some value ↔
    value = cs ∧ ∀ c ∈ cs, endsCodeLine c = false := by
  constructor
  · intro read
    obtain rfl := quote_injective (literalValue?_canonical read)
    exact ⟨rfl,contentValue?_within read⟩
  · rintro ⟨rfl,within⟩
    exact contentValue?_escape within

theorem stringLiteral_closes (s following : String) :
    (∃ body, (stringLiteral s).toList = '"' :: (body ++ ['"']) ∧
      body = replaced '"' ['\\','"'] (replaced '\\' ['\\','\\'] s.toList) ∧ Closed body ∧ unescaped body = s.toList) ∧
    readLiteral (stringLiteral s ++ following).toList = some (s.toList,following.toList) ∧
    (∀ count < (stringLiteral s).length, readLiteral ((stringLiteral s ++ following).toList.take count) = none) ∧
    Function.Injective stringLiteral ∧
    ∀ value, literalValue? (stringLiteral s).toList = some value ↔
      value = s.toList ∧ ∀ c ∈ s.toList, endsCodeLine c = false := by
  have shape : ∀ t, (stringLiteral t).toList = quote t.toList := fun t => String.toList_ofList
  obtain ⟨closed,known⟩ := escape_closed s.toList
  refine ⟨⟨escape s.toList,shape s,(replaced_replaced s.toList).symm,closed,known⟩,?_,?_,?_,?_⟩
  · rw [String.toList_append,shape]
    exact readLiteral_quote s.toList following.toList
  · intro count short
    rw [← String.length_toList,shape] at short
    rw [String.toList_append,shape]
    exact readLiteral_take short following.toList
  · intro left right same
    refine String.toList_inj.mp (quote_injective ?_)
    rw [← shape,← shape,same]
  · intro value
    rw [shape]
    exact literalValue?_quote_iff

theorem stringLiteral_closes_slashes :
    (stringLiteral "\\\"\\" ++ "\"").toList = "\"\\\\\\\"\\\\\"\"".toList ∧
    readLiteral (stringLiteral "\\\"\\" ++ "\"").toList = some ("\\\"\\".toList,"\"".toList) ∧
    5 < (stringLiteral "\\\"\\").length ∧ readLiteral ((stringLiteral "\\\"\\" ++ "\"").toList.take 5) = none := by
  obtain ⟨_,read,early,_⟩ := stringLiteral_closes "\\\"\\" "\""
  have short : 5 < (stringLiteral "\\\"\\").length := by decide
  exact ⟨by decide,read,short,early 5 short⟩

end TypedMvc.CSharp

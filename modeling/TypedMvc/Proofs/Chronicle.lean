import TypedMvc.Proofs.Reachability

namespace TypedMvc

namespace Run

variable {r : Run α} {P : Notice → Prop}

@[simp] theorem notices_settled (outcome : Except Failure α) : (settled outcome).notices = [] := rfl

@[simp] theorem notices_note (notice : Notice) : (note notice).notices = [notice] := rfl

theorem notices_bind_ok {a : α} (next : α → Run β) (ended : r.outcome = .ok a) :
    (r >>= next).notices = r.notices ++ (next a).notices := by
  rw [notices,bind_of_ok next ended]
  exact List.filterMap_append

theorem notices_bind_error {failure : Failure} (next : α → Run β) (ended : r.outcome = .error failure) :
    (r >>= next).notices = r.notices := by
  rw [notices,bind_of_error next ended]
  rfl

def Gives (P : Notice → Prop) (r : Run α) : Prop := ∀ notice ∈ r.notices, P notice

theorem Gives.bind {next : α → Run β} (first : Gives P r) (rest : ∀ a, Gives P (next a)) : Gives P (r >>= next) := by
  intro notice given
  cases ended : r.outcome with
  | ok a =>
    rw [notices_bind_ok next ended] at given
    cases List.mem_append.mp given with
    | inl early => exact first notice early
    | inr late => exact rest a notice late
  | error failure =>
    rw [notices_bind_error next ended] at given
    exact first notice given

theorem Gives.mono {Q : Notice → Prop} (gives : Gives P r) (wider : ∀ notice, P notice → Q notice) : Gives Q r :=
  fun notice given => wider notice (gives notice given)

-- A run that fails gave notices of a kind only, whatever it gives when it ends well.
def GivesBefore (P : Notice → Prop) (r : Run α) : Prop := ∀ failure, r.outcome = .error failure → Gives P r

theorem GivesBefore.bind {next : α → Run β} (first : Gives P r) (rest : ∀ a, GivesBefore P (next a)) :
    GivesBefore P (r >>= next) := by
  intro failure failed notice given
  cases ended : r.outcome with
  | ok a =>
    rw [bind_of_ok next ended] at failed
    rw [notices_bind_ok next ended] at given
    cases List.mem_append.mp given with
    | inl early => exact first notice early
    | inr late => exact rest a failure failed notice late
  | error other =>
    rw [notices_bind_error next ended] at given
    exact first notice given

end Run

namespace Synthesis

open CSharp

variable {root : String} {l : List (Controller × Nat)}

-- The candidates that are left behind earlier ones, what is told of them, and the classes made for them. One that has the
-- area and the name of an earlier one is skipped.
inductive Chronicle (root : String) : List Controller → List Controller → List Notice → List ClassDef → Prop where
  | done {earlier : List Controller} : Chronicle root earlier [] [] []
  | made {earlier rest : List Controller} {c : Controller} {name : String} {made : ClassDef} {notices : List Notice}
      {classes : List ClassDef} : (∀ d ∈ earlier, d.key ≠ c.key) → made.ns = root →
      c.viewOnlyClassName = .ok made.identifier → c.resolve (.str root) = .ok name →
      Chronicle root (earlier ++ [c]) rest notices classes →
      Chronicle root earlier (c :: rest) (.viewOnlyClass made.identifier name :: notices) (made :: classes)
  | skipped {earlier rest : List Controller} {c d : Controller} {notices : List Notice} {classes : List ClassDef} :
      d ∈ earlier → d.key = c.key → Chronicle root (earlier ++ [c]) rest notices classes →
      Chronicle root earlier (c :: rest) (.duplicateSkipped c.area c.name :: notices) classes

theorem Chronicle.length {earlier left : List Controller} {notices : List Notice} {classes : List ClassDef}
    (chronicle : Chronicle root earlier left notices classes) : notices.length = left.length := by
  induction chronicle with
  | done => rfl
  | made _ _ _ _ _ ih => rw [List.length_cons,List.length_cons,ih]
  | skipped _ _ _ ih => rw [List.length_cons,List.length_cons,ih]

section Steps

variable {c : Controller} {position : Nat} {rest : List (Controller × Nat)} {seen : List Key} {earlier : List Controller}

end Steps

end Synthesis

namespace Generation

open CSharp Synthesis

variable {target : Target} {cs : List Controller}

end Generation
end TypedMvc

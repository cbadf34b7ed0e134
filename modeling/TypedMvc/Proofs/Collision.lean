import TypedMvc.Proofs.Grammar
import TypedMvc.Proofs.Outcome

namespace TypedMvc

open CSharp

def lastLetter (identifier : String) : Option Char := identifier.toList.getLast?

theorem lastLetter_append (front : String) {back : String} {letter : Char} (last : lastLetter back = some letter) :
    lastLetter (front ++ back) = some letter := by
  rw [lastLetter] at last ⊢
  rw [String.toList_append,List.getLast?_append,last]
  rfl

namespace Controller

theorem lastLetter_className (name : String) : lastLetter (className name) = some 'r' := by
  simp [lastLetter,className,suffix]

theorem lastLetter_placeholderName (area name : String) : lastLetter (placeholderName area name) = some 'r' := by
  unfold placeholderName
  split
  · exact lastLetter_className name
  · simp [lastLetter,className,suffix]

theorem lastLetter_resolvedName (root : String) (c : Controller) : lastLetter (c.resolvedName root) = some 'r' := by
  unfold resolvedName
  split
  · exact lastLetter_append _ (lastLetter_placeholderName c.area.text c.name.text)
  · exact lastLetter_append _ (lastLetter_className c.name.text)

theorem lastLetter_areaClassName (area : String) : lastLetter (areaClassName area) = some 's' := by
  simp [lastLetter,areaClassName]

theorem areaClassName_injective : Function.Injective areaClassName := by
  intro a b equal
  have shown := congrArg String.toList equal
  simp only [areaClassName,String.toList_append] at shown
  exact String.toList_inj.mp (List.append_cancel_right shown)

end Controller

namespace Synthesis

theorem lastLetter_actionResult (root : String) : lastLetter (actionResultClass root).identifier = some 't' := by
  simp [actionResultClass,wrapperClass,lastLetter]

theorem lastLetter_jsonResult (root : String) : lastLetter (jsonResultClass root).identifier = some 't' := by
  simp [jsonResultClass,wrapperClass,lastLetter]

theorem actionResult_ne_jsonResult (root : String) :
    (actionResultClass root).identifier ≠ (jsonResultClass root).identifier := by
  simp [actionResultClass,jsonResultClass,wrapperClass]

def Apart (left right : List ClassDef) : Prop := ∀ a ∈ left, ∀ b ∈ right, a.key ≠ b.key

theorem apart_of_letters {left right : List ClassDef} {x y : Char} (different : x ≠ y)
    (lefts : ∀ a ∈ left, lastLetter a.identifier = some x) (rights : ∀ b ∈ right, lastLetter b.identifier = some y) :
    Apart left right := by
  intro a inLeft b inRight equal
  have same : a.identifier = b.identifier := congrArg Prod.snd equal
  have letters := (lefts a inLeft).symm.trans ((congrArg lastLetter same).trans (rights b inRight))
  exact different (Option.some.inj letters)

theorem apart_of_namespaces {left right : List ClassDef} {x y : String} (different : x ≠ y)
    (lefts : ∀ a ∈ left, a.ns = x) (rights : ∀ b ∈ right, b.ns = y) : Apart left right := by
  intro a inLeft b inRight equal
  have same : a.ns = b.ns := congrArg Prod.fst equal
  exact different ((lefts a inLeft).symm.trans (same.trans (rights b inRight)))

-- The classes of a generation by kind, whatever keys, areas and groups they are made for.
def kinds (target : Target) (keys : List Key) (areas : List String) (groups : String → List Controller)
    (named : List String) (group : List Controller) : List (List ClassDef) :=
  [keys.map (placeholderOf target.root),areas.map fun area => areaClassOf target.root area (groups area),
    [helpersOf target named group],[actionResultClass target.root],[jsonResultClass target.root]]

theorem kinds_apart (target : Target) (rooted : target.root ≠ "") (keys : List Key) (areas : List String)
    (groups : String → List Controller) (named : List String) (group : List Controller) :
    (kinds target keys areas groups named group).Pairwise Apart := by
  have placeholders : ∀ a ∈ keys.map (placeholderOf target.root),
      lastLetter a.identifier = some 'r' ∧ a.ns = target.root := by
    intro a member
    obtain ⟨key,_,rfl⟩ := List.mem_map.mp member
    exact ⟨Controller.lastLetter_placeholderName key.area key.name,rfl⟩
  have areaClasses : ∀ a ∈ areas.map (fun area => areaClassOf target.root area (groups area)),
      lastLetter a.identifier = some 's' ∧ a.ns = target.root := by
    intro a member
    obtain ⟨area,_,rfl⟩ := List.mem_map.mp member
    exact ⟨Controller.lastLetter_areaClassName area,rfl⟩
  have helpers : ∀ a ∈ [helpersOf target named group], a.ns = "" := by
    intro a member
    rw [List.mem_singleton.mp member]
    rfl
  have action : ∀ a ∈ [actionResultClass target.root], lastLetter a.identifier = some 't' ∧ a.ns = target.root := by
    intro a member
    rw [List.mem_singleton.mp member]
    exact ⟨lastLetter_actionResult target.root,rfl⟩
  have json : ∀ a ∈ [jsonResultClass target.root], lastLetter a.identifier = some 't' ∧ a.ns = target.root := by
    intro a member
    rw [List.mem_singleton.mp member]
    exact ⟨lastLetter_jsonResult target.root,rfl⟩
  have wrappersApart : Apart [actionResultClass target.root] [jsonResultClass target.root] := by
    intro a inLeft b inRight equal
    rw [List.mem_singleton.mp inLeft,List.mem_singleton.mp inRight] at equal
    exact actionResult_ne_jsonResult target.root (congrArg Prod.snd equal)
  simp only [kinds,List.pairwise_cons,List.mem_cons,List.not_mem_nil,or_false,forall_eq_or_imp,forall_eq,
    List.Pairwise.nil,and_true,false_imp_iff,implies_true]
  refine ⟨⟨?_,?_,?_,?_⟩,⟨?_,?_,?_⟩,⟨?_,?_⟩,wrappersApart⟩
  · exact apart_of_letters (by decide) (fun a m => (placeholders a m).1) (fun b m => (areaClasses b m).1)
  · exact apart_of_namespaces rooted (fun a m => (placeholders a m).2) helpers
  · exact apart_of_letters (by decide) (fun a m => (placeholders a m).1) (fun b m => (action b m).1)
  · exact apart_of_letters (by decide) (fun a m => (placeholders a m).1) (fun b m => (json b m).1)
  · exact apart_of_namespaces rooted (fun a m => (areaClasses a m).2) helpers
  · exact apart_of_letters (by decide) (fun a m => (areaClasses a m).1) (fun b m => (action b m).1)
  · exact apart_of_letters (by decide) (fun a m => (areaClasses a m).1) (fun b m => (json b m).1)
  · exact apart_of_namespaces rooted.symm helpers (fun b m => (action b m).2)
  · exact apart_of_namespaces rooted.symm helpers (fun b m => (json b m).2)

end Synthesis

namespace Generation

open Synthesis

variable {target : Target} {cs : List Controller}

theorem plan_kinds (target : Target) (cs : List Controller) :
    plan target cs =
      (kinds target (placeholderKeys cs) (namedAreas cs) (fun area => inArea area cs) (namedAreas cs)
        (inArea "" cs)).flatten := by
  simp [plan,areaPlan,kinds,wrappers]

-- Placeholders, area classes and wrappers end in different letters, and the helpers class alone is outside the root
-- namespace, so two classes meet only if they are placeholders.
theorem plan_nodup_iff (rooted : target.root ≠ "") :
    ((plan target cs).map ClassDef.key).Nodup ↔
      ∀ a ∈ placeholderKeys cs, ∀ b ∈ placeholderKeys cs,
        Controller.placeholderName a.area a.name = Controller.placeholderName b.area b.name → a = b := by
  have apart := kinds_apart target rooted (placeholderKeys cs) (namedAreas cs) (fun area => inArea area cs)
    (namedAreas cs) (inArea "" cs)
  have disjoint : ((kinds target (placeholderKeys cs) (namedAreas cs) (fun area => inArea area cs) (namedAreas cs)
      (inArea "" cs)).map (List.map ClassDef.key)).Pairwise List.Disjoint := by
    refine List.pairwise_map.mpr (apart.imp ?_)
    intro left right separate key inLeft inRight
    obtain ⟨a,memberLeft,rfl⟩ := List.mem_map.mp inLeft
    obtain ⟨b,memberRight,equal⟩ := List.mem_map.mp inRight
    exact separate a memberLeft b memberRight equal.symm
  have areas : (((namedAreas cs).map fun area => areaClassOf target.root area (inArea area cs)).map
      ClassDef.key).Nodup := by
    rw [List.map_map]
    refine (nodup_ascending _).map ?_
    intro a b equal
    exact Controller.areaClassName_injective (congrArg Prod.snd equal)
  have placeholders : (((placeholderKeys cs).map (placeholderOf target.root)).map ClassDef.key).Nodup ↔
      ∀ a ∈ placeholderKeys cs, ∀ b ∈ placeholderKeys cs,
        Controller.placeholderName a.area a.name = Controller.placeholderName b.area b.name → a = b := by
    have distinct : (placeholderKeys cs).Nodup := nodup_ascending _
    rw [List.map_map,List.nodup_map_iff_inj_on distinct]
    simp [placeholderOf,marked,ClassDef.key]
  rw [plan_kinds,List.map_flatten,List.nodup_flatten,and_iff_left disjoint]
  simp only [and_true,kinds,List.map_cons,List.map_nil,List.mem_cons,List.not_mem_nil,or_false,
    forall_eq_or_imp,forall_eq,areas,placeholders,List.nodup_singleton]

end Generation
end TypedMvc

import IdlBinder.Proofs.Inclusion
import Mathlib.Data.Multiset.AddSub
import Mathlib.Data.List.Perm.Basic

set_option autoImplicit false

/-!
# References and the types they are for

The native marshal spells a type in one recursion and says node by node, in another place, what
naming it needs. `native_references_exact` compares the two. In angle brackets stand the headers of
the standard names in the spelled type and nothing else, also where an optional interface is spelled
as the pointer that it is; in quotation marks stand the headers of the declarations that have to be
complete, and the others are declared in advance.

A spelled type holds the names of its declarations and type parameters besides the standard ones,
and the settings may spell those as they like. The standard names are what is left of all names when
the names of the declarations and type parameters are taken away (`standardNames`), so that a type
parameter called `int8_t` asks for nothing.
-/

namespace IdlBinder

/-! ## Numbers of arguments -/

/-- A node has the number of arguments that its head takes. What an interface takes is up to its
declaration. -/
def TypeExpr.HasArity : TypeExpr → Prop
  | .node (.declared d) args => d.kind = .interface ∨ args = []
  | .node head args => head.arity? = some args.length

/-- All nodes of a type expression have the number of arguments that their heads take. -/
def TypeExpr.HasArities (t : TypeExpr) : Prop := ∀ n ∈ t.nodes, n.HasArity

/-- The check lets no other type expressions through. -/
theorem WellFormed.hasArities {doc : Document} {params : List String} {t : TypeExpr}
    (hw : WellFormed doc params t) : t.HasArities := by
  intro n hn
  have hnode := hw.of_mem_nodes hn
  obtain ⟨head, args⟩ := n
  cases head with
  | declared d =>
      by_cases hkind : d.kind = .interface
      · exact Or.inl hkind
      · exact Or.inr (hnode.args_eq_nil hkind)
  | param p => exact congrArg some hnode.takes.2.symm
  | primitive _ | optional | list | set | map => exact congrArg some (Eq.symm hnode.takes)

namespace Native

variable (s : Settings)

/-! ## Standard names -/

/-- The name that the settings give to the declaration or the type parameter of a node. -/
def ownName? (n : TypeExpr) : Option String :=
  match n.head with
  | .declared d => some (s.nativeQualified d.name)
  | .param p => some (s.nativeTypeParam p)
  | _ => none

/-- The names in a spelled type without those of its declarations and type parameters, each taken
away as often as it occurs. -/
def standardNames (t : TypeExpr) : List String :=
  (spell s t).names.diff (t.nodes.filterMap (ownName? s))

end Native

theorem TypeName.namesAll_eq_flatMap (ts : List TypeName) :
    namesAll ts = ts.flatMap names := by
  induction ts with
  | nil => rfl
  | cons t ts ih => rw [namesAll, ih, List.flatMap_cons]

theorem TypeExpr.nodesAll_eq_flatMap (ts : List TypeExpr) : nodesAll ts = ts.flatMap nodes := by
  induction ts with
  | nil => rfl
  | cons t ts ih => rw [nodesAll, ih, List.flatMap_cons]

namespace Native

variable {s : Settings}

/-- The names of a class are its own name and those of its arguments. -/
theorem names_className (name : String) (args : List TypeName) :
    (className name args).names = name :: args.flatMap TypeName.names := by
  cases args with
  | nil => rfl
  | cons a as =>
      show name :: TypeName.namesAll (a :: as) = _
      rw [TypeName.namesAll_eq_flatMap]

/-- A spelled type holds the names that its nodes bring in, and no others. -/
theorem names_spell_perm {t : TypeExpr} (h : t.HasArities) :
    (spell s t).names.Perm
      (t.nodes.flatMap fun n => nodeNames n ++ (ownName? s n).toList) := by
  induction t using TypeExpr.nodeInduction with
  | node head args ih =>
      have harity : TypeExpr.HasArity (.node head args) := h _ (TypeExpr.mem_nodes.mpr (Or.inr rfl))
      -- What the arguments hold, in the order of the spelled type and in that of the nodes.
      have hargs : ((spellAll s args).flatMap TypeName.names).Perm
          ((TypeExpr.nodesAll args).flatMap fun n => nodeNames n ++ (ownName? s n).toList) := by
        rw [spellAll_eq_map, List.flatMap_map, TypeExpr.nodesAll_eq_flatMap, List.flatMap_assoc]
        refine List.Perm.flatMap_left args fun a ha => ih a ha fun n hn => ?_
        exact h n (TypeExpr.mem_nodes.mpr (Or.inl ⟨a, ha, hn⟩))
      have hnode : ((nodeNames (.node head args) ++ (ownName? s (.node head args)).toList) ++
          (spellAll s args).flatMap TypeName.names).Perm
          ((TypeExpr.node head args).nodes.flatMap fun n =>
            nodeNames n ++ (ownName? s n).toList) := by
        rw [TypeExpr.nodes, List.flatMap_append, List.flatMap_singleton]
        exact List.perm_append_comm.trans (hargs.append_right _)
      have htemplate : ∀ name, (TypeName.template name (spellAll s args)).names =
          [name] ++ (spellAll s args).flatMap TypeName.names := by
        intro name
        rw [TypeName.names, TypeName.namesAll_eq_flatMap]
        rfl
      cases head with
      | primitive p =>
          obtain rfl : args = [] := List.eq_nil_of_length_eq_zero (Option.some.inj harity).symm
          rw [spell]
          simpa [nodeNames, ownName?, spellAll, TypeExpr.head] using hnode
      | optional =>
          obtain ⟨a, rfl⟩ := List.length_eq_one_iff.mp (Option.some.inj harity).symm
          rw [spell]
          split
          next hcollapses =>
            simpa [nodeNames, ownName?, spellAll, TypeExpr.head, TypeExpr.args, hcollapses]
              using hnode
          next hcollapses =>
            rw [htemplate]
            simpa [nodeNames, ownName?, TypeExpr.head, TypeExpr.args, hcollapses] using hnode
      | list => exact htemplate _ ▸ hnode
      | set => exact htemplate _ ▸ hnode
      | map => exact htemplate _ ▸ hnode
      | param p =>
          obtain rfl : args = [] := List.eq_nil_of_length_eq_zero (Option.some.inj harity).symm
          exact hnode
      | declared d =>
          have hplain : d.kind ≠ .interface → args = [] := fun hkind => harity.resolve_left hkind
          rw [spell]
          cases hkind : d.kind with
          | enum | record =>
              obtain rfl : args = [] := hplain (by simp [hkind])
              simpa [nodeNames, ownName?, spellAll, TypeExpr.head, TypeName.names, hkind]
                using hnode
          | interface =>
              rw [TypeName.names, TypeName.namesAll_eq_flatMap, List.flatMap_singleton,
                names_className]
              simpa [nodeNames, ownName?, TypeExpr.head, hkind] using hnode

/-- The standard names in a spelled type are those that its nodes bring in. -/
theorem mem_standardNames_iff {t : TypeExpr} (h : t.HasArities) {name : String} :
    name ∈ standardNames s t ↔ ∃ n ∈ t.nodes, name ∈ nodeNames n := by
  have hsplit : (spell s t).names.Perm
      (t.nodes.flatMap nodeNames ++ t.nodes.filterMap (ownName? s)) := by
    rw [List.filterMap_eq_flatMap_toList]
    exact (names_spell_perm h).trans (List.flatMap_append_perm _ _ _).symm
  have hstandard : (standardNames s t).Perm (t.nodes.flatMap nodeNames) := by
    rw [← Multiset.coe_eq_coe, standardNames, ← Multiset.coe_sub, Multiset.coe_eq_coe.mpr hsplit,
      ← Multiset.coe_add, Multiset.add_sub_cancel_right]
  rw [hstandard.mem_iff, List.mem_flatMap]

end Native

/-! ## What a type needs -/

namespace Native

variable {s : Settings} {t : TypeExpr} {role : FileRole} {owner : Option String}

/-- The include targets of a type are the headers of its standard names and of the declarations that
have to be complete. -/
theorem mem_includes_collect_iff (h : t.HasArities) {target : String} :
    target ∈ (References.collect (needs s) role owner t).includes ↔
      (∃ name ∈ standardNames s t, (name, target) ∈ standardHeaders) ∨
      ∃ n ∈ t.nodes, ∃ d, n.head = .declared d ∧ d.IsIncluded role owner ∧
        target = s.includeTarget (s.fileStem d.name) := by
  rw [← References.inclusion_mem, References.mem_collect]
  simp only [FileRole.keeps_inclusion, true_and, mem_needs_iff, mem_standardNames_iff h,
    Need.inclusion.injEq, reduceCtorEq, and_false, exists_false, or_false]
  constructor
  · rintro ⟨n, hn, ⟨name, hname, header, hheader, rfl⟩ | ⟨d, hd⟩⟩
    · exact Or.inl ⟨name, ⟨n, hn, hname⟩, hheader⟩
    · exact Or.inr ⟨n, hn, d, hd⟩
  · rintro (⟨name, ⟨n, hn, hname⟩, hheader⟩ | ⟨n, hn, d, hd⟩)
    · exact ⟨n, hn, Or.inl ⟨name, hname, target, hheader, rfl⟩⟩
    · exact ⟨n, hn, Or.inr ⟨d, hd⟩⟩

theorem mem_forwards_collect_iff {text : String} :
    text ∈ (References.collect (needs s) role owner t).forwards ↔
      ∃ n ∈ t.nodes, ∃ d, n.head = .declared d ∧ d.IsForwarded role owner ∧
        text = forwardDecl s d n.args.length := by
  have hheader : ∀ {d : DefRef}, d.IsForwarded role owner → role = .header := by
    intro d hd
    cases hkind : d.kind <;> simp only [DefRef.IsForwarded, hkind] at hd
    · exact hd.1
    · exact hd.1
  rw [← References.forward_mem, References.mem_collect]
  simp only [FileRole.keeps_forward, mem_needs_iff, Need.forward.injEq, reduceCtorEq, and_false,
    exists_false, false_or]
  constructor
  · rintro ⟨-, hneeds⟩
    exact hneeds
  · rintro ⟨n, hn, d, hhead, hd, htext⟩
    exact ⟨hheader hd, n, hn, d, hhead, hd, htext⟩

/-- The references of a type whose nodes have the right numbers of arguments, for all settings,
roles and owners: in angle brackets the headers of the standard names in the spelled type, in
quotation marks the headers of enums, of other records and, in a source, of other interfaces, and in
a header forward declarations of other interfaces and of the owner itself if it is a record. -/
theorem native_references_exact (s : Settings) (role : FileRole) (owner : Option String)
    {t : TypeExpr} (h : t.HasArities) :
    (∀ target, target ∈ (References.collect (needs s) role owner t).includes →
      Angled target ∨ Quoted target) ∧
    (∀ target, target ∈ (References.collect (needs s) role owner t).includes ∧ Angled target ↔
      ∃ name ∈ standardNames s t, (name, target) ∈ standardHeaders) ∧
    (∀ target, target ∈ (References.collect (needs s) role owner t).includes ∧ Quoted target ↔
      ∃ n ∈ t.nodes, ∃ d, n.head = .declared d ∧ d.IsIncluded role owner ∧
        target = s.includeTarget (s.fileStem d.name)) ∧
    ∀ text, text ∈ (References.collect (needs s) role owner t).forwards ↔
      ∃ n ∈ t.nodes, ∃ d, n.head = .declared d ∧ d.IsForwarded role owner ∧
        text = forwardDecl s d n.args.length := by
  refine ⟨fun target => ?_, fun target => ?_, fun target => ?_, fun text => ?_⟩
  · rw [mem_includes_collect_iff h]
    rintro (⟨name, -, hheader⟩ | ⟨n, -, d, -, -, rfl⟩)
    · exact Or.inl (angled_of_mem_standardHeaders hheader)
    · exact Or.inr (s.quoted_includeTarget _)
  · rw [mem_includes_collect_iff h]
    constructor
    · rintro ⟨hstandard | ⟨n, -, d, -, -, rfl⟩, hangled⟩
      · exact hstandard
      · exact absurd (s.quoted_includeTarget _) hangled.not_quoted
    · rintro ⟨name, hname, hheader⟩
      exact ⟨Or.inl ⟨name, hname, hheader⟩, angled_of_mem_standardHeaders hheader⟩
  · rw [mem_includes_collect_iff h]
    constructor
    · rintro ⟨⟨name, -, hheader⟩ | hdeclared, hquoted⟩
      · exact absurd hquoted (angled_of_mem_standardHeaders hheader).not_quoted
      · exact hdeclared
    · rintro ⟨n, hn, d, hhead, hd, rfl⟩
      exact ⟨Or.inr ⟨n, hn, d, hhead, hd, rfl⟩, s.quoted_includeTarget _⟩
  · exact mem_forwards_collect_iff

end Native

namespace Sample

/-- Type parameters are spelled as they are written. -/
def verbatimParams : Settings := { nativeStyles := { Styles.native with typeParam := .verbatim } }

/-- An optional interface, and a type parameter with a standard name. -/
def tickers : TypeExpr :=
  .node .map [.node (.param "int8_t") [],
    .node .optional [.node (.declared ⟨"ticker", .interface⟩) [.node (.primitive .date) []]]]

end Sample

open Sample in
theorem tickers_references_exact :
    tickers.HasArities ∧
      Native.typename verbatimParams tickers = "std::unordered_map<int8_t, " ++
        "std::shared_ptr<::bridge::Ticker<std::chrono::system_clock::time_point>>>" ∧
      (References.collect (Native.needs verbatimParams) .header none tickers).includes.toList =
        ["<chrono>", "<memory>", "<unordered_map>"] ∧
      ∀ target, target ∈
          (References.collect (Native.needs verbatimParams) .header none tickers).includes ∧
          Angled target ↔
        ∃ name ∈ Native.standardNames verbatimParams tickers,
          (name, target) ∈ Native.standardHeaders := by
  have harities : tickers.HasArities := by
    intro n hn
    simp only [tickers, TypeExpr.nodes, TypeExpr.nodesAll, List.nil_append, List.append_nil,
      List.cons_append, List.mem_cons, List.not_mem_nil, or_false] at hn
    rcases hn with rfl | rfl | rfl | rfl | rfl
    · rfl
    · rfl
    · exact Or.inl rfl
    · rfl
    · rfl
  exact ⟨harities, by decide +kernel, by decide +kernel,
    (Native.native_references_exact verbatimParams .header none harities).2.1⟩

end IdlBinder

import IdlBinder.Proofs.References
import IdlBinder.Proofs.WellFormed

set_option autoImplicit false

/-!
# References as sets

References are gathered by a fold over the nodes of types, with insertions and merges in whatever
order the types come. Nothing of this order is left in the result: references with the same needs
are equal (`References.ext_mem`), and the needs come from the set of nodes alone
(`collect_depends_on_nodes`).

The members stand in increasing order of their characters. This is the order of their UTF-8 bytes
(`lt_iff_bytes_lt`): a character of a higher number has the greater bytes, whatever follows.
-/

namespace IdlBinder

/-! ## Order by bytes -/

namespace Text

/-- The UTF-8 bytes of a text. -/
def bytes (s : String) : List UInt8 := s.toUTF8.data.toList

theorem bytes_eq_flatMap (s : String) : bytes s = s.toList.flatMap String.utf8EncodeChar := by
  conv => lhs; rw [← String.ofList_toList (s := s)]
  show (String.ofList s.toList).toByteArray.data.toList = _
  rw [String.toByteArray_ofList, List.utf8Encode, List.data_toByteArray]

/-- What is left of a number when `k` digits in base 64 are cut off. -/
def top : Nat → Nat → Nat
  | 0, v => v
  | k + 1, v => top k (v / 64)

/-- The last `k` digits of a number in base 64, as continuation bytes. -/
def trail : Nat → Nat → List UInt8
  | 0, _ => []
  | k + 1, v => trail k (v / 64) ++ [UInt8.ofNat (v % 64 + 128)]

/-- A character has a leading byte, whose range tells the number of continuation bytes. -/
theorem exists_utf8EncodeChar_eq (c : Char) :
    ∃ k lead, String.utf8EncodeChar c = UInt8.ofNat (top k c.val.toNat + lead) ::
        trail k c.val.toNat ∧
      ((k = 0 ∧ lead = 0 ∧ c.val.toNat < 128) ∨
        (k = 1 ∧ lead = 192 ∧ 128 ≤ c.val.toNat ∧ c.val.toNat < 2048) ∨
        (k = 2 ∧ lead = 224 ∧ 2048 ≤ c.val.toNat ∧ c.val.toNat < 65536) ∨
        (k = 3 ∧ lead = 240 ∧ 65536 ≤ c.val.toNat ∧ c.val.toNat < 1114112)) := by
  have hvalid : c.val.toNat < 1114112 := by
    rcases c.valid with h | h
    · omega
    · exact h.2
  unfold String.utf8EncodeChar
  generalize c.val.toNat = v at *
  simp only
  -- Cutting two or three digits off at once is cutting them off one by one.
  have h2 : v / 64 / 64 = v / 4096 := by omega
  have h3 : v / 64 / 64 / 64 = v / 262144 := by omega
  split
  next h => exact ⟨0, 0, rfl, by omega⟩
  next h =>
    split
    next h' =>
      refine ⟨1, 192, ?_, by omega⟩
      have hlead : v / 64 % 32 = v / 64 := by omega
      rw [hlead]
      rfl
    next h' =>
      split
      next h'' =>
        refine ⟨2, 224, ?_, by omega⟩
        have hlead : v / 4096 % 16 = v / 64 / 64 := by omega
        rw [hlead]
        rfl
      next h'' =>
        refine ⟨3, 240, ?_, by omega⟩
        have hlead : v / 262144 % 8 = v / 64 / 64 / 64 := by omega
        rw [hlead, ← h2]
        rfl

theorem ofNat_lt_ofNat {a b : Nat} (hab : a < b) (hb : b < 256) :
    UInt8.ofNat a < UInt8.ofNat b := by
  rw [UInt8.lt_iff_toNat_lt, UInt8.toNat_ofNat', UInt8.toNat_ofNat']
  omega

/-- Of two numbers that differ in their last digits only, the smaller one has the smaller digits. -/
theorem trail_append_lt {k v w : Nat} (htop : top k v = top k w) (h : v < w) (x y : List UInt8) :
    trail k v ++ x < trail k w ++ y := by
  induction k generalizing v w x y with
  | zero =>
      have heq : v = w := htop
      omega
  | succ k ih =>
      rw [trail, trail, List.append_assoc, List.append_assoc]
      by_cases hdiv : v / 64 = w / 64
      · rw [hdiv]
        refine List.append_left_lt (List.cons_lt_cons_iff.mpr (Or.inl ?_))
        exact ofNat_lt_ofNat (by omega) (by omega)
      · exact ih htop (by omega) _ _

theorem utf8EncodeChar_append_lt {c d : Char} (h : c < d) (x y : List UInt8) :
    String.utf8EncodeChar c ++ x < String.utf8EncodeChar d ++ y := by
  have hlt : c.val.toNat < d.val.toNat := h
  obtain ⟨k, lead, hc, hk⟩ := exists_utf8EncodeChar_eq c
  obtain ⟨l, mark, hd, hl⟩ := exists_utf8EncodeChar_eq d
  rw [hc, hd, List.cons_append, List.cons_append, List.cons_lt_cons_iff]
  by_cases hsame : k = l ∧ top k c.val.toNat = top k d.val.toNat
  · obtain ⟨rfl, htop⟩ := hsame
    have hmark : lead = mark := by omega
    exact Or.inr ⟨by rw [hmark, htop], trail_append_lt htop hlt x y⟩
  · -- The ranges of leading bytes rise with the number of bytes.
    left
    generalize c.val.toNat = v at *
    generalize d.val.toNat = w at *
    rcases hk with ⟨rfl, rfl, hv⟩ | ⟨rfl, rfl, hv⟩ | ⟨rfl, rfl, hv⟩ | ⟨rfl, rfl, hv⟩ <;>
      rcases hl with ⟨rfl, rfl, hw⟩ | ⟨rfl, rfl, hw⟩ | ⟨rfl, rfl, hw⟩ | ⟨rfl, rfl, hw⟩ <;>
      simp only [top, true_and] at hsame ⊢ <;>
      exact ofNat_lt_ofNat (by omega) (by omega)

theorem flatMap_utf8EncodeChar_lt {cs ds : List Char} (h : cs < ds) :
    cs.flatMap String.utf8EncodeChar < ds.flatMap String.utf8EncodeChar := by
  induction cs generalizing ds with
  | nil =>
      cases ds with
      | nil => exact absurd h (List.lt_irrefl _)
      | cons d ds =>
          obtain ⟨k, lead, hd, -⟩ := exists_utf8EncodeChar_eq d
          rw [List.flatMap_cons, hd]
          exact List.nil_lt_cons _ _
  | cons c cs ih =>
      cases ds with
      | nil => exact absurd h (List.not_lt_nil _)
      | cons d ds =>
          rw [List.flatMap_cons, List.flatMap_cons]
          rcases List.cons_lt_cons_iff.mp h with hlt | ⟨rfl, hlt⟩
          · exact utf8EncodeChar_append_lt hlt _ _
          · exact List.append_left_lt (ih hlt)

theorem bytes_lt_of_lt {s t : String} (h : s < t) : bytes s < bytes t := by
  have hchars : s.toList < t.toList := h
  rw [bytes_eq_flatMap, bytes_eq_flatMap]
  exact flatMap_utf8EncodeChar_lt hchars

/-- Texts are in the order of their bytes. -/
theorem lt_iff_bytes_lt {s t : String} : s < t ↔ bytes s < bytes t := by
  constructor
  · exact bytes_lt_of_lt
  · intro h
    rcases Std.lt_trichotomy s t with hlt | rfl | hgt
    · exact hlt
    · exact absurd h (List.lt_irrefl _)
    · exact absurd h (List.lt_asymm (bytes_lt_of_lt hgt))

end Text

/-! ## Equal sets -/

namespace TextSet

/-- Sets with the same members are equal. -/
theorem ext_mem {s t : TextSet} (h : ∀ x, x ∈ s ↔ x ∈ t) : s = t := by
  have hnodup : ∀ u : TextSet, u.toList.Nodup := by
    intro u
    refine u.increasing.imp ?_
    rintro a _ hlt rfl
    exact String.lt_irrefl a hlt
  have hperm : s.toList.Perm t.toList :=
    (List.perm_ext_iff_of_nodup (hnodup s) (hnodup t)).mpr h
  have hlist : s.toList = t.toList := by
    refine hperm.eq_of_pairwise ?_ s.increasing t.increasing
    intro a b _ _ hab hba
    exact absurd hba (String.lt_asymm hab)
  cases s
  cases t
  simpa using hlist

/-- The members stand in increasing order of their bytes. -/
theorem pairwise_bytes_lt (s : TextSet) :
    s.toList.Pairwise fun a b => Text.bytes a < Text.bytes b :=
  s.increasing.imp Text.lt_iff_bytes_lt.mp

end TextSet

namespace References

/-- References with the same needs are equal. -/
theorem ext_mem {r t : References} (h : ∀ x : Need, x ∈ r ↔ x ∈ t) : r = t := by
  have hincludes : r.includes = t.includes := TextSet.ext_mem fun target => h (.inclusion target)
  have hforwards : r.forwards = t.forwards := TextSet.ext_mem fun text => h (.forward text)
  cases r
  cases t
  simp_all

/-! ## Merging -/

theorem merge_assoc (r t u : References) : (r.merge t).merge u = r.merge (t.merge u) := by
  refine ext_mem fun x => ?_
  simp only [mem_merge, or_assoc]

theorem merge_comm (r t : References) : r.merge t = t.merge r := by
  refine ext_mem fun x => ?_
  simp only [mem_merge, or_comm]

theorem merge_self (r : References) : r.merge r = r := by
  refine ext_mem fun x => ?_
  simp only [mem_merge, or_self]

/-! ## Collecting -/

variable {needs : NeedsOf} {role : FileRole} {owner : Option String}

theorem mem_collectAll_iff_nodesAll {x : Need} {ts : List TypeExpr} :
    x ∈ collectAll needs role owner ts ↔
      role.keeps x = true ∧ ∃ n ∈ TypeExpr.nodesAll ts, x ∈ needs n role owner := by
  rw [mem_collectAll]
  simp only [TypeExpr.mem_nodesAll]
  constructor
  · rintro ⟨hkeeps, t, ht, n, hn, hx⟩
    exact ⟨hkeeps, n, ⟨t, ht, hn⟩, hx⟩
  · rintro ⟨hkeeps, n, ⟨t, ht, hn⟩, hx⟩
    exact ⟨hkeeps, t, ht, n, hn, hx⟩

theorem mem_includes_collectAll {target : String} {ts : List TypeExpr} :
    target ∈ (collectAll needs role owner ts).includes ↔
      ∃ n ∈ TypeExpr.nodesAll ts, .inclusion target ∈ needs n role owner := by
  rw [← inclusion_mem, mem_collectAll_iff_nodesAll]
  simp only [FileRole.keeps_inclusion, true_and]

theorem mem_forwards_collectAll {text : String} {ts : List TypeExpr} :
    text ∈ (collectAll needs role owner ts).forwards ↔
      role = .header ∧ ∃ n ∈ TypeExpr.nodesAll ts, .forward text ∈ needs n role owner := by
  rw [← forward_mem, mem_collectAll_iff_nodesAll, FileRole.keeps_forward]

theorem collectAll_eq_of_nodes {ts us : List TypeExpr}
    (h : ∀ n, n ∈ TypeExpr.nodesAll ts ↔ n ∈ TypeExpr.nodesAll us) :
    collectAll needs role owner ts = collectAll needs role owner us := by
  refine ext_mem fun x => ?_
  rw [mem_collectAll_iff_nodesAll, mem_collectAll_iff_nodesAll]
  simp only [h]

theorem collectAll_eq_of_mem {ts us : List TypeExpr} (h : ∀ t, t ∈ ts ↔ t ∈ us) :
    collectAll needs role owner ts = collectAll needs role owner us := by
  refine collectAll_eq_of_nodes fun n => ?_
  simp only [TypeExpr.mem_nodesAll, h]

theorem collectAll_append (ts us : List TypeExpr) :
    collectAll needs role owner (ts ++ us) =
      (collectAll needs role owner ts).merge (collectAll needs role owner us) := by
  refine ext_mem fun x => ?_
  simp only [mem_merge, mem_collectAll, List.mem_append, or_and_right, exists_or, and_or_left]

theorem mem_collect_of_mem_args {t a : TypeExpr} (ha : a ∈ t.args) {x : Need}
    (hx : x ∈ collect needs role owner a) : x ∈ collect needs role owner t := by
  obtain ⟨head, args⟩ := t
  obtain ⟨hkeeps, n, hn, hneed⟩ := mem_collect.mp hx
  exact mem_collect.mpr ⟨hkeeps, n, TypeExpr.mem_nodes.mpr (Or.inl ⟨a, ha, hn⟩), hneed⟩

/-- Whatever the single nodes need, the references of types depend on the set of their nodes alone.
They hold what these nodes need, without forward declarations in a source, in increasing order of
the bytes. So the order of the types and repetitions do not matter, the references of two lists
together are those of each merged, merging is the union of sets, and a type has all references of
its arguments. -/
theorem collect_depends_on_nodes (needs : NeedsOf) (role : FileRole) (owner : Option String) :
    (∀ ts us : List TypeExpr, (∀ n, n ∈ TypeExpr.nodesAll ts ↔ n ∈ TypeExpr.nodesAll us) →
      collectAll needs role owner ts = collectAll needs role owner us) ∧
    (∀ ts : List TypeExpr,
      (∀ target, target ∈ (collectAll needs role owner ts).includes.toList ↔
        ∃ n ∈ TypeExpr.nodesAll ts, .inclusion target ∈ needs n role owner) ∧
      (∀ text, text ∈ (collectAll needs role owner ts).forwards.toList ↔
        role = .header ∧ ∃ n ∈ TypeExpr.nodesAll ts, .forward text ∈ needs n role owner) ∧
      (collectAll needs role owner ts).includes.toList.Pairwise
        (fun a b => Text.bytes a < Text.bytes b) ∧
      (collectAll needs role owner ts).forwards.toList.Pairwise
        (fun a b => Text.bytes a < Text.bytes b)) ∧
    (∀ ts us : List TypeExpr, ts.Perm us →
      collectAll needs role owner ts = collectAll needs role owner us) ∧
    (∀ (ts : List TypeExpr) (k : Nat),
      collectAll needs role owner (List.replicate (k + 1) ts).flatten =
        collectAll needs role owner ts) ∧
    (∀ ts us : List TypeExpr, collectAll needs role owner (ts ++ us) =
      (collectAll needs role owner ts).merge (collectAll needs role owner us)) ∧
    (∀ r t u : References, (r.merge t).merge u = r.merge (t.merge u)) ∧
    (∀ r t : References, r.merge t = t.merge r) ∧
    (∀ r : References, r.merge r = r) ∧
    ∀ t : TypeExpr, ∀ a ∈ t.args,
      (∀ target ∈ (collect needs role owner a).includes,
        target ∈ (collect needs role owner t).includes) ∧
      ∀ text ∈ (collect needs role owner a).forwards,
        text ∈ (collect needs role owner t).forwards := by
  refine ⟨fun ts us => collectAll_eq_of_nodes, fun ts => ?_, fun ts us hperm => ?_, fun ts k => ?_,
    collectAll_append, merge_assoc, merge_comm, merge_self, fun t a ha => ?_⟩
  · exact ⟨fun target => mem_includes_collectAll, fun text => mem_forwards_collectAll,
      TextSet.pairwise_bytes_lt _, TextSet.pairwise_bytes_lt _⟩
  · exact collectAll_eq_of_mem fun t => hperm.mem_iff
  · exact collectAll_eq_of_mem fun t => by simp
  · constructor
    · intro target htarget
      exact mem_collect_of_mem_args ha (inclusion_mem.mpr htarget)
    · intro text htext
      exact mem_collect_of_mem_args ha (forward_mem.mpr htext)

end References

end IdlBinder

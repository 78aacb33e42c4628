import IdlBinder.Files.Path

set_option autoImplicit false

/-!
# Routes

A route is what is left of a path once its dots are resolved: where it starts, and the names it goes
down from there. Joining paths is following one route after the other (`route_join`), so that where
a joined path leads can be computed from its two parts.

A path stays below whatever directory it is joined to exactly if its route starts where the path
does (`isBelow_join_iff`).
-/

namespace IdlBinder

/-- Where a route starts: at the root, or in a directory some levels above the current one. -/
inductive Anchor where
  | root
  | above (n : Nat)
deriving DecidableEq

/-- A path with its dots resolved. -/
structure Route where
  start : Anchor := .above 0
  names : List String := []
deriving DecidableEq

namespace Route

/-- One directory up. There is nothing above the root. -/
def up (r : Route) : Route :=
  match r.names, r.start with
  | [], .root => r
  | [], .above n => { r with start := .above (n + 1) }
  | name :: names, _ => { r with names := (name :: names).dropLast }

/-- Follows a component of a path. -/
def step (r : Route) : Path.Component → Route
  | .root => ⟨.root, []⟩
  | .here => r
  | .up => r.up
  | .name s => { r with names := r.names ++ [s] }

/-- Some directories up. -/
def climb (r : Route) : Nat → Route
  | 0 => r
  | n + 1 => (r.climb n).up

/-- Follows a route out of the place that another one leads to. -/
def follow (base r : Route) : Route :=
  match r.start with
  | .root => r
  | .above n => { base.climb n with names := (base.climb n).names ++ r.names }

/-- A route to a directory or to something in it. -/
def IsBelow (r dir : Route) : Prop := r.start = dir.start ∧ dir.names <+: r.names

instance (r dir : Route) : Decidable (r.IsBelow dir) :=
  inferInstanceAs (Decidable (_ ∧ _))

end Route

/-- The route of a path. -/
def Path.route (p : Path) : Route := p.components.foldl Route.step {}

namespace Route

/-! ## Going up -/

theorem up_of_names {r : Route} (h : r.names ≠ []) :
    r.up = { r with names := r.names.dropLast } := by
  obtain ⟨start, _ | ⟨name, names⟩⟩ := r
  · exact absurd rfl h
  · rfl

theorem up_above (n : Nat) : up ⟨.above n, []⟩ = ⟨.above (n + 1), []⟩ := rfl

/-- As long as there are names, going up takes them away from the end. -/
theorem climb_of_le (r : Route) {n : Nat} (h : n ≤ r.names.length) :
    r.climb n = { r with names := r.names.take (r.names.length - n) } := by
  induction n with
  | zero => simp [climb]
  | succ n ih =>
      have hne : r.names.take (r.names.length - n) ≠ [] := by
        apply List.ne_nil_of_length_pos
        rw [List.length_take]
        omega
      have htake : (r.names.take (r.names.length - n)).dropLast =
          r.names.take (r.names.length - (n + 1)) := by
        rw [List.dropLast_eq_take, List.take_take, List.length_take]
        congr 1
        omega
      rw [climb, ih (by omega), up_of_names hne, htake]

/-- Once the names are used up, every further step goes above the start. -/
theorem climb_of_ge {k n : Nat} {names : List String} (h : names.length ≤ n) :
    climb ⟨.above k, names⟩ n = ⟨.above (k + (n - names.length)), []⟩ := by
  induction h with
  | refl => simp [climb_of_le]
  | step hn ih =>
      rw [climb, ih, up_above, Nat.succ_sub hn]
      rfl

/-! ## Following a route -/

theorem follow_root (base : Route) (names : List String) :
    base.follow ⟨.root, names⟩ = ⟨.root, names⟩ := rfl

theorem follow_above (base : Route) (n : Nat) (names : List String) :
    base.follow ⟨.above n, names⟩ =
      { base.climb n with names := (base.climb n).names ++ names } := rfl

theorem follow_empty (base : Route) : base.follow {} = base := by
  rw [follow_above, climb, List.append_nil]

theorem empty_follow (r : Route) : follow {} r = r := by
  obtain ⟨_ | n, names⟩ := r
  · rfl
  · rw [follow_above, climb_of_ge (by simp)]
    simp

/-- A step from the end of a followed route is a step of this route. -/
theorem step_follow (base r : Route) (c : Path.Component) :
    (base.follow r).step c = base.follow (r.step c) := by
  obtain ⟨start, names⟩ := r
  cases c with
  | root => rfl
  | here => rfl
  | name s => cases start <;> simp [step, follow]
  | up =>
      show (base.follow ⟨start, names⟩).up = base.follow (up ⟨start, names⟩)
      -- Going up takes a name of the second route away, as long as it has one.
      by_cases hnames : names = []
      · subst hnames
        cases start with
        | root => rfl
        | above n => simp [up_above, follow_above, climb]
      · rw [up_of_names (r := ⟨start, names⟩) hnames]
        cases start with
        | root => exact up_of_names hnames
        | above n =>
            rw [follow_above, follow_above, up_of_names (by simp [hnames]),
              List.dropLast_append_of_ne_nil hnames]

/-- Names lead nowhere but down. -/
theorem start_foldl_step {cs : List Path.Component} (r : Route) (hup : .up ∉ cs)
    (hroot : .root ∉ cs) : (cs.foldl step r).start = r.start := by
  induction cs generalizing r with
  | nil => rfl
  | cons c cs ih =>
      rw [List.mem_cons, not_or] at hup hroot
      rw [List.foldl_cons, ih _ hup.2 hroot.2]
      cases c with
      | root => exact absurd rfl hroot.1
      | up => exact absurd rfl hup.1
      | here => rfl
      | name s => rfl

/-- A route that is followed stays below the start iff it does not climb past the names of the
first route. -/
theorem start_follow_iff {base r : Route} (h : base.start = .above 0) :
    (base.follow r).start = .above 0 ↔ ∃ n ≤ base.names.length, r.start = .above n := by
  obtain ⟨start, names⟩ := base
  obtain rfl : start = .above 0 := h
  obtain ⟨_ | n, names'⟩ := r
  · simp [follow_root]
  · by_cases hn : n ≤ names.length
    · simp [follow_above, climb_of_le ⟨.above 0, names⟩ hn, hn]
    · have hpos : 0 + (n - names.length) ≠ 0 := by omega
      simpa [follow_above, climb_of_ge (Nat.le_of_not_le hn), hn] using hpos

theorem isBelow_follow {base r : Route} (h : r.start = .above 0) :
    (base.follow r).IsBelow base := by
  obtain ⟨start, names⟩ := r
  obtain rfl : start = .above 0 := h
  exact ⟨rfl, List.prefix_append _ _⟩

/-- Out of a directory with one name, a route that starts elsewhere leads to a place in this
directory only by coming back to its name. -/
theorem head?_of_isBelow_follow {name : String} {r : Route} (h : r.start ≠ .above 0)
    (hbelow : (follow ⟨.above 0, [name]⟩ r).IsBelow ⟨.above 0, [name]⟩) :
    r.names.head? = some name := by
  obtain ⟨_ | n, names⟩ := r
  · exact absurd hbelow.1 (by simp [follow_root])
  · have hn : [name].length ≤ n := Nat.one_le_iff_ne_zero.mpr fun hn => h (by rw [hn])
    obtain ⟨-, rest, hrest⟩ := hbelow
    rw [follow_above, climb_of_ge hn, List.nil_append] at hrest
    rw [← hrest]
    rfl

/-! ## The route of a path -/

/-- Follows a piece of a path. -/
def stepPiece (r : Route) (piece : List Char) : Route :=
  if Path.isSilent piece then r else r.step (Path.component piece)

theorem stepPiece_nil (r : Route) : r.stepPiece [] = r := rfl

/-- A dot does not move, whether it counts as a component or not. -/
theorem step_component {piece : List Char} (r : Route) (h : piece ≠ []) :
    r.step (Path.component piece) = r.stepPiece piece := by
  by_cases hdot : piece = ['.']
  · subst hdot
    rfl
  · rw [stepPiece, if_neg (by simp [Path.isSilent, h, hdot])]

theorem stepPiece_follow (base r : Route) (piece : List Char) :
    (base.follow r).stepPiece piece = base.follow (r.stepPiece piece) := by
  simp only [stepPiece]
  split
  · rfl
  · rw [step_follow]

/-- Pieces are followed the same way from every place. -/
theorem foldl_stepPiece_follow (ps : List (List Char)) (base r : Route) :
    ps.foldl stepPiece (base.follow r) = base.follow (ps.foldl stepPiece r) := by
  induction ps generalizing r with
  | nil => rfl
  | cons piece ps ih => rw [List.foldl_cons, stepPiece_follow, ih, List.foldl_cons]

/-- No component leads away from the root. -/
theorem start_step_of_root {r : Route} (h : r.start = .root) (c : Path.Component) :
    (r.step c).start = .root := by
  obtain ⟨start, names⟩ := r
  obtain rfl : start = .root := h
  cases c with
  | up => cases names <;> rfl
  | _ => rfl

theorem start_foldl_stepPiece_of_root (ps : List (List Char)) {r : Route} (h : r.start = .root) :
    (ps.foldl stepPiece r).start = .root := by
  induction ps generalizing r with
  | nil => exact h
  | cons piece ps ih =>
      apply ih
      rw [stepPiece]
      split
      · exact h
      · exact start_step_of_root h _

theorem foldl_step_filter (ps : List (List Char)) (r : Route) :
    ((ps.filter (!Path.isSilent ·)).map Path.component).foldl step r = ps.foldl stepPiece r := by
  rw [List.foldl_map, List.foldl_filter]
  congr 1
  funext r piece
  by_cases h : Path.isSilent piece <;> simp [stepPiece, h]

end Route

namespace Path

theorem pieces_ne_nil (cs : List Char) : pieces cs ≠ [] := by
  cases cs with
  | nil => simp [pieces]
  | cons c cs =>
      rw [pieces]
      split
      · simp
      · split <;> simp

theorem pieces_append_slash (xs ys : List Char) :
    pieces (xs ++ '/' :: ys) = pieces xs ++ pieces ys := by
  induction xs with
  | nil => simp [pieces]
  | cons c xs ih =>
      by_cases hc : c = '/'
      · simp [pieces, hc, ih]
      · obtain ⟨p, ps, hps⟩ := List.exists_cons_of_ne_nil (pieces_ne_nil xs)
        simp [pieces, hc, ih, hps]

/-- There is nothing in front of the slash of the root. -/
theorem exists_pieces_of_isRooted {p : Path} (h : p.isRooted) :
    ∃ rest, pieces p.text.toList = [] :: rest := by
  obtain ⟨cs, hcs⟩ : ∃ cs, p.text.toList = '/' :: cs := by
    simpa [isRooted, List.head?_eq_some_iff] using h
  rw [hcs, pieces, if_pos rfl]
  exact ⟨pieces cs, rfl⟩

/-- A route can be read off the pieces of a path, whatever they stand for. -/
theorem route_eq (p : Path) :
    p.route = (pieces p.text.toList).foldl Route.stepPiece
      ⟨if p.isRooted then .root else .above 0, []⟩ := by
  obtain ⟨first, rest, hps⟩ := List.exists_cons_of_ne_nil (pieces_ne_nil p.text.toList)
  simp only [route, components, hps, List.foldl_append, Route.foldl_step_filter, List.foldl_cons]
  congr 1
  by_cases hroot : p.isRooted
  · have hfirst : first = [] := by
      obtain ⟨_, hrooted⟩ := exists_pieces_of_isRooted hroot
      rw [hps] at hrooted
      exact (List.cons.inj hrooted).1
    simp [hroot, hfirst, Route.step, Route.stepPiece_nil]
  · by_cases hfirst : first = []
    · simp [hroot, hfirst, Route.stepPiece_nil]
    · simp [hroot, hfirst, Route.step_component]

theorem start_route_of_isRooted {p : Path} (h : p.isRooted) : p.route.start = .root := by
  rw [route_eq, if_pos h]
  exact Route.start_foldl_stepPiece_of_root _ rfl

theorem foldl_stepPiece_pieces {q : Path} (h : q.isRooted = false) (base : Route) :
    (pieces q.text.toList).foldl Route.stepPiece base = base.follow q.route := by
  have hfollow := Route.foldl_stepPiece_follow (pieces q.text.toList) base {}
  rw [Route.follow_empty] at hfollow
  rw [hfollow, route_eq q, if_neg (by simp [h])]

/-- Joining puts a slash between two paths, unless the first one ends with a slash of its own. -/
theorem exists_text_join {p q : Path} (hp : p.text ≠ "") (hq : q.isRooted = false) :
    ∃ cs, (p.text.toList = cs ∨ p.text.toList = cs ++ ['/']) ∧
      (p.join q).text.toList = cs ++ '/' :: q.text.toList := by
  rw [join, if_neg (by simp [hq])]
  split
  case isTrue hslash =>
    have hne : p.text.toList ≠ [] := by simpa using hp
    have hlast : p.text.toList.getLast hne = '/' := by
      simpa [List.getLast?_eq_some_getLast hne] using hslash
    have hcs : p.text.toList = p.text.toList.dropLast ++ ['/'] := by
      rw [← hlast, List.dropLast_concat_getLast]
    refine ⟨p.text.toList.dropLast, Or.inr hcs, ?_⟩
    rw [String.toList_append, hcs, List.append_assoc, ← hcs]
    rfl
  case isFalse hslash => exact ⟨p.text.toList, Or.inl rfl, by simp⟩

/-- Joining keeps the pieces of both paths, in order; only silent ones may come or go. -/
theorem foldl_stepPiece_join {p q : Path} (hp : p.text ≠ "") (hq : q.isRooted = false) (r : Route) :
    (pieces (p.join q).text.toList).foldl Route.stepPiece r =
      (pieces q.text.toList).foldl Route.stepPiece
        ((pieces p.text.toList).foldl Route.stepPiece r) := by
  obtain ⟨cs, hcs | hcs, hjoin⟩ := exists_text_join hp hq
  · rw [hjoin, hcs, pieces_append_slash, List.foldl_append]
  · rw [hjoin, hcs, pieces_append_slash, pieces_append_slash, List.foldl_append, List.foldl_append]
    rfl

theorem isRooted_join {p q : Path} (hp : p.text ≠ "") (hq : q.isRooted = false) :
    (p.join q).isRooted = p.isRooted := by
  obtain ⟨c, cs, hcs⟩ : ∃ c cs, p.text.toList = c :: cs :=
    List.exists_cons_of_ne_nil (by simpa using hp)
  rw [join, if_neg (by simp [hq])]
  split <;> simp [isRooted, hcs]

/-- No slash is put behind the empty path, so that nothing becomes rooted. -/
theorem empty_join {p : Path} (hp : p.text = "") (q : Path) : p.join q = q := by
  simp [join, hp]

/-- A joined path leads where its second part leads from the end of the first. -/
theorem route_join (p q : Path) : (p.join q).route = p.route.follow q.route := by
  by_cases hq : q.isRooted
  · have hstart := start_route_of_isRooted hq
    rw [join, if_pos hq, Route.follow, hstart]
  · rw [Bool.not_eq_true] at hq
    by_cases hp : p.text = ""
    · have hroute : p.route = {} := by
        obtain ⟨text⟩ := p
        obtain rfl : text = "" := hp
        rfl
      rw [empty_join hp, hroute, Route.empty_follow]
    · rw [route_eq (p.join q), isRooted_join hp hq, foldl_stepPiece_join hp hq, ← route_eq,
        foldl_stepPiece_pieces hq]

/-! ## Staying below a directory -/

theorem component_ne_root (piece : List Char) : component piece ≠ .root := by
  rw [component]
  split
  · simp
  · split <;> simp

theorem root_notMem_components {p : Path} (h : p.isRooted = false) : .root ∉ p.components := by
  obtain ⟨first, rest, hps⟩ := List.exists_cons_of_ne_nil (pieces_ne_nil p.text.toList)
  simp only [components, hps, h, List.mem_append, List.mem_map, not_or]
  refine ⟨?_, ?_⟩
  · rw [if_neg (by simp)]
    split
    · simp
    · simpa using (component_ne_root first).symm
  · rintro ⟨piece, -, hpiece⟩
    exact component_ne_root piece hpiece

/-- A path that neither goes up nor starts at the root only goes down. -/
theorem start_route_of_not_goesUp {p : Path} (hup : p.goesUp = false) (hroot : p.isRooted = false) :
    p.route.start = .above 0 :=
  Route.start_foldl_step {} (by simpa [goesUp] using hup) (root_notMem_components hroot)

/-- The paths that stay below every directory they may be joined to are those whose routes start
where the paths do. A directory may not go up itself. -/
theorem isBelow_join_iff (p : Path) :
    (∀ dir : Path, dir.goesUp = false → (dir.join p).route.IsBelow dir.route) ↔
      p.route.start = .above 0 := by
  constructor
  · intro h
    refine Decidable.byContradiction fun hstart => ?_
    -- One directory may be named as the path goes on from above it, but not two of them.
    have ha := h ⟨"a"⟩ (by decide)
    have hb := h ⟨"b"⟩ (by decide)
    rw [route_join] at ha hb
    have hheada := Route.head?_of_isBelow_follow hstart ha
    have hheadb := Route.head?_of_isBelow_follow hstart hb
    rw [hheada] at hheadb
    exact absurd hheadb (by decide)
  · intro hstart dir _
    rw [route_join]
    exact Route.isBelow_follow hstart

end Path

end IdlBinder

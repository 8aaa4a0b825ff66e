import Blocklist.Machine.FileTree
import Blocklist.Proofs.Text

set_option autoImplicit false

/-! # Files in a tree

What the calls on files do to one file and to what stands beside it. A `Place` is a path that leads
down to a file. Where no file stands in its way, reading, writing and making directories are
settled by what the tree holds at the names that lead there (`FileTree.node?`), and change nothing
elsewhere. -/

namespace Blocklist.Machine

/-! ## Paths -/

/-- Names without a slash, as they stand along a path. -/
def Slashless (names : List String) : Prop :=
  ∀ name ∈ names, '/' ∉ name.toList

theorem slashless_append {names more : List String} :
    Slashless (names ++ more) ↔ Slashless names ∧ Slashless more :=
  List.forall_mem_append

theorem Slashless.above {names more : List String} (h : Slashless more)
    (hon : names <+: more) : Slashless names :=
  fun name hname => h name (hon.subset hname)

namespace Path

theorem names_ofList_append_slash (front rest : List Char) :
    names (String.ofList (front ++ '/' :: rest))
      = names (String.ofList front) ++ names (String.ofList rest) := by
  simp [names, List.splitOn_append_cons_self]

theorem slashless_names (path : String) : Slashless (names path) := by
  intro name hname
  obtain ⟨cs, hcs, rfl⟩ := List.mem_map.1 (List.mem_filter.1 hname).1
  rw [String.toList_ofList]
  exact Text.not_mem_of_mem_splitOn hcs

theorem trimReversed_suffix (cs : List Char) : trimReversed cs <:+ cs := by
  fun_induction trimReversed with
  | case1 rest ih => exact ih.trans (List.suffix_cons _ _)
  | case2 rest ih => exact ih.trans (List.suffix_cons _ _)
  | case3 => exact List.suffix_refl _

/-- Slashes and single dots at the end of a path name nothing. -/
theorem names_trimReversed (cs : List Char) :
    names (String.ofList (trimReversed cs).reverse) = names (String.ofList cs.reverse) := by
  have hempty : names (String.ofList []) = [] := by decide
  have hdot : names (String.ofList ['.']) = [] := by decide
  have hslash : ∀ rest : List Char, names (String.ofList ('/' :: rest).reverse)
      = names (String.ofList rest.reverse) := by
    intro rest
    rw [List.reverse_cons, names_ofList_append_slash, hempty, List.append_nil]
  fun_induction trimReversed with
  | case1 rest ih => rw [ih, hslash]
  | case2 rest ih =>
    rw [ih, hslash, List.reverse_cons, List.reverse_cons, List.append_assoc, List.singleton_append,
      names_ofList_append_slash, hdot, List.append_nil]
  | case3 => rfl

end Path

/-- A path that leads down to a file: what stands in front of the file's name is empty or ends with
a slash, does not begin with one, and never leads up. -/
structure Place where
  front : String
  name : String
  relative : front.toList.head? ≠ some '/'
  slash : ∀ c ∈ front.toList.getLast?, c = '/'
  down : ".." ∉ Path.names front
  slashless : '/' ∉ name.toList
  nonempty : name ≠ ""
  named : name ≠ "." ∧ name ≠ ".."

namespace Place

variable (place : Place)

/-- The path of the file. -/
def path : String := place.front ++ place.name

/-- The names that lead to the directory of the file. -/
def directory : List String := Path.names place.front

/-- The names that lead to the file. -/
def names : List String := place.directory ++ [place.name]

theorem front_eq : place.front = "" ∨ ∃ base, place.front.toList = base ++ ['/'] := by
  cases hlast : place.front.toList.getLast? with
  | none => exact .inl (String.toList_eq_nil_iff.1 (List.getLast?_eq_none_iff.1 hlast))
  | some c =>
    obtain ⟨base, hbase⟩ := List.getLast?_eq_some_iff.1 hlast
    exact .inr ⟨base, place.slash c hlast ▸ hbase⟩

theorem names_name : Path.names place.name = [place.name] := by
  rw [Path.names, List.splitOn_eq_singleton place.slashless]
  simp [place.nonempty, place.named.1]

@[simp]
theorem names_path : Path.names place.path = place.names := by
  rw [names, directory, path]
  rcases place.front_eq with hfront | ⟨base, hbase⟩
  · rw [hfront, String.empty_append, place.names_name]
    rfl
  · have hpath : place.front ++ place.name = String.ofList (base ++ '/' :: place.name.toList) := by
      rw [← String.toList_inj]
      simp [hbase]
    have hfront : place.front = String.ofList (base ++ '/' :: []) := by
      rw [← hbase, String.ofList_toList]
    have hempty : Path.names (String.ofList []) = [] := by decide
    rw [hpath, hfront, Path.names_ofList_append_slash, Path.names_ofList_append_slash,
      String.ofList_toList, place.names_name, hempty, List.append_nil]

theorem up_not_mem_names : ".." ∉ place.names := by
  rw [names, List.mem_append, List.mem_singleton, not_or]
  exact ⟨place.down, Ne.symm place.named.2⟩

theorem slashless_names : Slashless place.names :=
  slashless_append.2 ⟨Path.slashless_names _, by simpa [Slashless] using place.slashless⟩

theorem names_ne_nil : place.names ≠ [] := by
  simp [names]

theorem isEmpty_path : place.path.isEmpty = false := by
  rw [← Bool.not_eq_true, String.isEmpty_iff, path]
  simp [place.nonempty]

theorem startsWith_slash_of_head? {path : String} (h : path.toList.head? ≠ some '/') :
    path.startsWith "/" = false := by
  rw [← Bool.not_eq_true, String.startsWith_string_iff]
  rintro ⟨rest, hrest⟩
  exact h (by simp [← hrest])

theorem head?_path : place.path.toList.head? ≠ some '/' := by
  rw [path, String.toList_append, List.head?_append]
  cases hhead : place.front.toList.head? with
  | none =>
    rw [Option.none_or]
    intro hslash
    exact place.slashless (List.mem_of_mem_head? hslash)
  | some c =>
    rw [Option.some_or, ← hhead]
    exact place.relative

theorem meansDirectory_path : FileTree.meansDirectory place.path = false := by
  rw [FileTree.meansDirectory, path, String.toList_append, List.getLast?_append]
  cases hlast : place.name.toList.getLast? with
  | none =>
    have hempty := String.toList_eq_nil_iff.1 (List.getLast?_eq_none_iff.1 hlast)
    exact absurd hempty place.nonempty
  | some c =>
    rw [Option.some_or, beq_eq_false_iff_ne]
    intro hslash
    exact place.slashless (List.mem_of_getLast? (hlast.trans hslash))

/-- The name of a file is nothing that stands for a directory. -/
theorem trimReversed_path :
    Path.trimReversed place.path.toList.reverse = place.path.toList.reverse := by
  obtain ⟨c, cs, hname⟩ : ∃ c cs, place.name.toList.reverse = c :: cs := by
    refine List.exists_cons_of_ne_nil ?_
    simpa using place.nonempty
  have hslash : '/' ∉ c :: cs := by
    rw [← hname, List.mem_reverse]
    exact place.slashless
  have hpath : place.path.toList.reverse = c :: (cs ++ place.front.toList.reverse) := by
    rw [path, String.toList_append, List.reverse_append, hname, List.cons_append]
  rw [hpath]
  refine Path.trimReversed.eq_3 _ ?_ ?_
  · rintro rest heq
    obtain ⟨rfl, -⟩ := List.cons.inj heq
    exact hslash (List.mem_cons_self ..)
  · rintro rest heq
    obtain ⟨rfl, hrest⟩ := List.cons.inj heq
    cases cs with
    | nil =>
      refine place.named.1 (String.toList_inj.1 ?_)
      rw [← List.reverse_reverse place.name.toList, hname]
      rfl
    | cons next cs =>
      obtain ⟨rfl, -⟩ := List.cons.inj hrest
      exact hslash (by simp)

theorem dropWhile_path :
    place.path.toList.reverse.dropWhile (· != '/') = place.front.toList.reverse := by
  have hname : ∀ c ∈ place.name.toList.reverse, (c != '/') = true := by
    intro c hc
    rw [bne_iff_ne]
    rintro rfl
    exact place.slashless (List.mem_reverse.1 hc)
  rw [path, String.toList_append, List.reverse_append, List.dropWhile_append_of_pos hname]
  rcases place.front_eq with hfront | ⟨base, hbase⟩
  · rw [hfront]
    rfl
  · rw [hbase]
    simp

/-- The directory to be made before the file can stand there is the one its names lead to. -/
theorem names_directoryOf? :
    match Path.directoryOf? place.path with
    | none => place.directory = []
    | some directory =>
      Path.names directory = place.directory ∧ directory.startsWith "/" = false := by
  have hnames := Path.names_trimReversed place.front.toList.reverse
  have hsuffix := Path.trimReversed_suffix place.front.toList.reverse
  have hrooted : (place.path.toList.head? == some '/') = false := beq_false_of_ne place.head?_path
  have hreverse : place.path.toList.reverse ≠ [] := by
    simpa using place.isEmpty_path
  obtain ⟨c, cs, hcs⟩ := List.exists_cons_of_ne_nil hreverse
  rw [Path.directoryOf?, Path.parent?, hrooted, place.trimReversed_path, hcs]
  simp only [← hcs, place.dropWhile_path]
  rw [List.reverse_reverse, String.ofList_toList] at hnames
  generalize Path.trimReversed place.front.toList.reverse = above at *
  cases above with
  | nil => exact hnames.symm
  | cons d ds =>
    have hnonempty : (!(String.ofList (d :: ds).reverse).isEmpty) = true := by
      simp
    obtain ⟨rest, hrest⟩ : (d :: ds).reverse <+: place.front.toList := by
      rw [← List.reverse_suffix, List.reverse_reverse]
      exact hsuffix
    have hhead : (d :: ds).reverse.head? ≠ some '/' := by
      intro hslash
      refine place.relative ?_
      rw [← hrest, List.head?_append, hslash]
      rfl
    simp only [Option.filter_some, hnonempty, if_true]
    exact ⟨hnames, startsWith_slash_of_head? (by rwa [String.toList_ofList])⟩

/-- A place in the same directory. -/
def beside (suffix : String) (h : '/' ∉ suffix.toList) (hlong : 2 ≤ suffix.length) : Place where
  front := place.front
  name := place.name ++ suffix
  relative := place.relative
  slash := place.slash
  down := place.down
  slashless := by
    rw [String.toList_append, List.mem_append, not_or]
    exact ⟨place.slashless, h⟩
  nonempty := by
    simp [place.nonempty]
  named := by
    have hname : 1 ≤ place.name.length := by
      rw [Nat.one_le_iff_ne_zero, ← String.length_toList]
      simpa using place.nonempty
    constructor
    · intro heq
      have hlength := congrArg String.length heq
      rw [String.length_append] at hlength
      have hdot : String.length "." = 1 := rfl
      omega
    · intro heq
      have hlength := congrArg String.length heq
      rw [String.length_append] at hlength
      have hdots : String.length ".." = 2 := rfl
      omega

/-- In one directory, names of different files lead to different places. -/
theorem names_ne_of_name_ne {place other : Place} (h : other.directory = place.directory)
    (hname : other.name ≠ place.name) : other.names ≠ place.names := by
  rw [names, names, h]
  intro heq
  exact hname (List.singleton_inj.1 (List.append_cancel_left heq))

theorem slashless_of_above {above : List String} (h : above <+: place.directory) :
    Slashless above :=
  Slashless.above (Path.slashless_names _) h

/-- No file is on the way to its directory. -/
theorem names_ne_of_above {above : List String} (h : above <+: place.directory) :
    place.names ≠ above := by
  rintro rfl
  have hlength := h.length_le
  rw [names, List.length_append, List.length_singleton] at hlength
  omega

end Place

/-! ## Trees -/

namespace FileTree

/-- The key of names is the names themselves. -/
theorem key_inj {names other : List String} (hnames : Slashless names) (hother : Slashless other)
    (hne : names ≠ []) (hne' : other ≠ []) : key names = key other ↔ names = other := by
  have hsplit : ∀ {names : List String}, Slashless names → names ≠ [] →
      (key names).toList.splitOn '/' = names.map String.toList := by
    intro names hnames hne
    rw [key, String.toList_intercalate]
    refine List.splitOn_intercalate '/' ?_ (by simpa using hne)
    simpa [Slashless] using hnames
  constructor
  · intro heq
    have hmap := hsplit hnames hne
    rw [heq, hsplit hother hne'] at hmap
    exact (List.map_inj_right fun _ _ => String.toList_inj.1).1 hmap.symm
  · rintro rfl
    rfl

theorem node?_insert (tree : FileTree) {names other : List String} (node : Node)
    (hnames : Slashless names) (hother : Slashless other) (hne : names ≠ []) :
    node? ⟨tree.nodes.insert (key names) node⟩ other
      = if names = other then some node else tree.node? other := by
  cases other with
  | nil => rw [node?, node?, if_neg hne]; rfl
  | cons first rest =>
    have hkey := key_inj hnames hother hne (List.cons_ne_nil first rest)
    rw [node?, node?, List.isEmpty_cons, if_neg Bool.false_ne_true, if_neg Bool.false_ne_true,
      Std.ExtTreeMap.getElem?_insert]
    simp only [Std.LawfulEqCmp.compare_eq_iff_eq, hkey]

theorem node?_erase (tree : FileTree) {names other : List String} (hnames : Slashless names)
    (hother : Slashless other) (hne : names ≠ []) :
    node? ⟨tree.nodes.erase (key names)⟩ other
      = if names = other then none else tree.node? other := by
  cases other with
  | nil => rw [node?, node?, if_neg hne]; rfl
  | cons first rest =>
    have hkey := key_inj hnames hother hne (List.cons_ne_nil first rest)
    rw [node?, node?, List.isEmpty_cons, if_neg Bool.false_ne_true, if_neg Bool.false_ne_true,
      Std.ExtTreeMap.getElem?_erase]
    simp only [Std.LawfulEqCmp.compare_eq_iff_eq, hkey]

/-- Names lead through directories. -/
def Through (tree : FileTree) (names : List String) : Prop :=
  ∀ above, above <+: names → tree.node? above = some .directory

/-- No file stands along names, though directories may be missing. -/
def Passable (tree : FileTree) (names : List String) : Prop :=
  ∀ above content, above <+: names → tree.node? above ≠ some (.file content)

theorem Through.passable {tree : FileTree} {names : List String} (h : tree.Through names) :
    tree.Passable names := by
  intro above content habove hfile
  rw [h above habove] at hfile
  cases hfile

theorem through_nil (tree : FileTree) : tree.Through [] := by
  intro above habove
  rw [List.prefix_nil.1 habove]
  rfl

/-- The content of the file at the end of names. -/
def content? (tree : FileTree) (names : List String) : Option ByteArray :=
  match tree.node? names with
  | some (.file content) => some content
  | _ => none

/-- A way without files is followed to its end, unless a directory is missing on it. -/
theorem walk_of_passable {tree : FileTree} {above rest : List String} {name : String}
    (h : tree.Passable (above.reverse ++ rest)) (hdown : ".." ∉ rest ++ [name]) :
    tree.walk above (rest ++ [name]) = .ok (above.reverse ++ (rest ++ [name]))
      ∨ tree.walk above (rest ++ [name]) = .error missing
        ∧ ∃ gap, gap <+: above.reverse ++ rest ∧ tree.node? gap = none := by
  induction rest generalizing above with
  | nil =>
    have hname : (name == "..") = false := by
      simpa using fun heq : name = ".." => hdown (by simp [heq])
    rw [List.nil_append, walk]
    cases hnode : tree.node? above.reverse with
    | none => exact .inr ⟨rfl, above.reverse, List.prefix_append _ _, hnode⟩
    | some node =>
      cases node with
      | file content => exact absurd hnode (h _ content (List.prefix_append _ _))
      | directory =>
        refine .inl ?_
        simp [hname, walk]
  | cons first rest ih =>
    have hfirst : (first == "..") = false := by
      simpa using fun heq : first = ".." => hdown (by simp [heq])
    have hrest : ".." ∉ rest ++ [name] := fun hmem => hdown (List.mem_cons_of_mem _ hmem)
    have hsplit : above.reverse ++ first :: rest = (first :: above).reverse ++ rest := by simp
    rw [List.cons_append, walk]
    cases hnode : tree.node? above.reverse with
    | none => exact .inr ⟨rfl, above.reverse, List.prefix_append _ _, hnode⟩
    | some node =>
      cases node with
      | file content => exact absurd hnode (h _ content (List.prefix_append _ _))
      | directory =>
        have hih := ih (hsplit ▸ h) hrest
        simp only [hfirst, Bool.false_eq_true, if_false]
        rw [hsplit]
        simpa using hih

theorem makeAlong_cons {tree : FileTree} {above rest : List String} {name : String}
    (hpassable : tree.Passable (name :: above).reverse) (hname : name ≠ "..")
    (hslashless : Slashless (name :: above).reverse) :
    ∃ after : FileTree, tree.makeAlong above (name :: rest) = after.makeAlong (name :: above) rest ∧
      ∀ names, Slashless names → after.node? names
        = if (name :: above).reverse = names then some .directory else tree.node? names := by
  have hup : (name == "..") = false := beq_false_of_ne hname
  rw [makeAlong]
  simp only [hup, Bool.false_eq_true, if_false]
  cases hnode : tree.node? (name :: above).reverse with
  | none =>
    refine ⟨_, rfl, fun names hnames => ?_⟩
    exact node?_insert tree .directory hslashless hnames (by simp)
  | some node =>
    cases node with
    | file content => exact absurd hnode (hpassable _ content (List.prefix_refl _))
    | directory =>
      refine ⟨tree, rfl, fun names _ => ?_⟩
      split
      · next heq => rw [← heq, hnode]
      · rfl

/-- Of the prefixes of a list that are longer than `above`, the first is the one with one name more;
the others are longer than this one. -/
theorem longer_prefix_iff {above rest names : List String} {name : String} :
    names <+: (name :: above).reverse ++ rest ∧ above.length < names.length
      ↔ (name :: above).reverse = names
        ∨ names <+: (name :: above).reverse ++ rest ∧ (name :: above).length < names.length := by
  have hfirst : (name :: above).reverse <+: (name :: above).reverse ++ rest :=
    List.prefix_append _ _
  have hlength : (name :: above).reverse.length = above.length + 1 := by simp
  have hlength' : (name :: above).length = above.length + 1 := rfl
  constructor
  · rintro ⟨hon, hlonger⟩
    by_cases hsame : names.length = above.length + 1
    · have hshorter : (name :: above).reverse <+: names :=
        List.prefix_of_prefix_length_le hfirst hon (by omega)
      exact .inl (hshorter.eq_of_length (by omega))
    · exact .inr ⟨hon, by omega⟩
  · rintro (rfl | ⟨hon, hlonger⟩)
    · exact ⟨hfirst, by omega⟩
    · exact ⟨hon, by omega⟩

/-- Along a way without files all directories can be made, and nothing else changes. -/
theorem makeAlong_of_passable {tree : FileTree} {above rest : List String}
    (h : tree.Passable (above.reverse ++ rest)) (hdown : ".." ∉ rest)
    (hslashless : Slashless (above.reverse ++ rest)) :
    ∃ after, tree.makeAlong above rest = .ok after ∧
      ∀ names, Slashless names → after.node? names
        = if names <+: above.reverse ++ rest ∧ above.length < names.length then some .directory
          else tree.node? names := by
  induction rest generalizing above tree with
  | nil =>
    refine ⟨tree, rfl, fun names hnames => ?_⟩
    rw [if_neg]
    rintro ⟨hon, hlonger⟩
    have hlength := hon.length_le
    rw [List.append_nil, List.length_reverse] at hlength
    omega
  | cons name rest ih =>
    have hname : name ≠ ".." := fun heq => hdown (by simp [heq])
    have hrest : ".." ∉ rest := fun hmem => hdown (List.mem_cons_of_mem _ hmem)
    have hsplit : above.reverse ++ name :: rest = (name :: above).reverse ++ rest := by simp
    rw [hsplit] at h hslashless ⊢
    have hhead : tree.Passable (name :: above).reverse := fun p content hp =>
      h p content (hp.trans (List.prefix_append _ _))
    obtain ⟨next, hnext, hnodes⟩ := makeAlong_cons hhead hname (slashless_append.1 hslashless).1
    have hpassable : next.Passable ((name :: above).reverse ++ rest) := by
      intro names content hon
      rw [hnodes names (hslashless.above hon)]
      split
      · nofun
      · exact h names content hon
    obtain ⟨after, hafter, hmade⟩ := ih hpassable hrest hslashless
    refine ⟨after, hnext.trans hafter, fun names hnames => ?_⟩
    rw [hmade names hnames, hnodes names hnames]
    simp only [longer_prefix_iff]
    by_cases hsame : (name :: above).reverse = names
    · simp only [hsame, true_or, if_true, ite_self]
    · simp only [hsame, false_or, if_false]

end FileTree

/-! ## Calls on a place -/

namespace Place

open FileTree

variable {place : Place} {tree : FileTree}

theorem resolve_eq : tree.resolve place.path = tree.walk [] place.names := by
  have hrelative := startsWith_slash_of_head? place.head?_path
  rw [resolve, place.isEmpty_path, hrelative, names_path]
  rfl

theorem resolve_of_passable (h : tree.Passable place.directory) :
    tree.resolve place.path = .ok place.names
      ∨ tree.resolve place.path = .error missing
        ∧ ∃ gap, gap <+: place.directory ∧ tree.node? gap = none := by
  rw [resolve_eq]
  exact @walk_of_passable tree [] _ _ h place.up_not_mem_names

theorem resolve_of_through (h : tree.Through place.directory) :
    tree.resolve place.path = .ok place.names := by
  rcases resolve_of_passable h.passable with hresolve | ⟨-, gap, hgap, hnone⟩
  · exact hresolve
  · rw [h gap hgap] at hnone
    cases hnone

theorem read_of_through {content : ByteArray} (h : tree.Through place.directory)
    (hnode : tree.node? place.names = some (.file content)) :
    tree.read place.path = .ok content := by
  have hresolve := resolve_of_through h
  simp [FileTree.read, hresolve, hnode, meansDirectory_path, bind, Except.bind]

theorem read_of_none (h : tree.Passable place.directory) (hnode : tree.node? place.names = none) :
    tree.read place.path = .error missing := by
  rcases resolve_of_passable h with hresolve | ⟨hresolve, -⟩
  · simp [FileTree.read, hresolve, hnode, bind, Except.bind]
  · simp [FileTree.read, hresolve, bind, Except.bind]

theorem modify_of_through (h : tree.Through place.directory)
    (hnode : tree.node? place.names ≠ some .directory) (change : Option ByteArray → ByteArray) :
    ∃ after, tree.modify place.path change = .ok after ∧
      ∀ names, Slashless names → after.node? names
        = if place.names = names then some (.file (change (tree.content? place.names)))
          else tree.node? names := by
  have hresolve := resolve_of_through h
  have hinsert : ∀ content names, Slashless names →
      node? ⟨tree.nodes.insert (key place.names) (.file content)⟩ names
        = if place.names = names then some (.file content) else tree.node? names :=
    fun content names hnames =>
      node?_insert tree (.file content) place.slashless_names hnames place.names_ne_nil
  rw [content?]
  cases hplace : tree.node? place.names with
  | none =>
    refine ⟨_, ?_, hinsert _⟩
    simp [FileTree.modify, hresolve, hplace, meansDirectory_path, bind, Except.bind]
  | some node =>
    cases node with
    | directory => exact absurd hplace hnode
    | file content =>
      refine ⟨_, ?_, hinsert _⟩
      simp [FileTree.modify, hresolve, hplace, meansDirectory_path, bind, Except.bind]

/-- A file in the directory of a place changes nothing on the way to it. -/
theorem node?_above {other : Place} {after : FileTree} {node? : Option Node}
    (hdirectory : other.directory = place.directory)
    (hnodes : ∀ names, Slashless names → after.node? names
      = if other.names = names then node? else tree.node? names)
    {above : List String} (hon : above <+: place.directory) :
    after.node? above = tree.node? above := by
  rw [hnodes above (place.slashless_of_above hon)]
  exact if_neg (other.names_ne_of_above (hdirectory ▸ hon))

theorem rename_of_through {source : Place} {content : ByteArray}
    (hdirectory : source.directory = place.directory) (h : tree.Through place.directory)
    (hsource : tree.node? source.names = some (.file content))
    (htarget : tree.node? place.names ≠ some .directory) :
    ∃ after, tree.rename source.path place.path = .ok after ∧
      ∀ names, Slashless names → after.node? names
        = if place.names = names then some (.file content)
          else if source.names = names then none else tree.node? names := by
  have hresolve := resolve_of_through h
  have hresolve' : tree.resolve source.path = .ok source.names :=
    resolve_of_through (hdirectory ▸ h)
  refine ⟨⟨(tree.nodes.erase (key source.names)).insert (key place.names) (.file content)⟩, ?_, ?_⟩
  · cases hplace : tree.node? place.names with
    | none => simp [FileTree.rename, hresolve, hresolve', hsource, hplace, bind, Except.bind]
    | some node =>
      cases node with
      | directory => exact absurd hplace htarget
      | file old => simp [FileTree.rename, hresolve, hresolve', hsource, hplace, bind, Except.bind]
  · intro names hnames
    rw [node?_insert ⟨tree.nodes.erase (key source.names)⟩ _ place.slashless_names hnames
      place.names_ne_nil, node?_erase tree source.slashless_names hnames source.names_ne_nil]

/-- The directory of a place is made where nothing stands in the way. -/
theorem makeAlong_directory (h : tree.Passable place.directory) :
    ∃ after, tree.makeAlong [] place.directory = .ok after ∧ after.Through place.directory ∧
      ∀ names, Slashless names → ¬ names <+: place.directory →
        after.node? names = tree.node? names := by
  have hslashless : Slashless place.directory := Path.slashless_names _
  obtain ⟨after, hafter, hnodes⟩ := @makeAlong_of_passable tree [] _ h place.down hslashless
  refine ⟨after, hafter, ?_, ?_⟩
  · intro above habove
    rw [hnodes above (place.slashless_of_above habove)]
    cases above with
    | nil => rfl
    | cons first rest => exact if_pos ⟨habove, Nat.zero_lt_succ _⟩
  · intro names hnames hother
    rw [hnodes names hnames, if_neg]
    exact fun hmade => hother hmade.1

end Place

end Blocklist.Machine

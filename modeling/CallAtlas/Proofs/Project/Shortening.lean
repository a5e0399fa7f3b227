import CallAtlas.Project.Basic
import CallAtlas.Proofs.Project.Paths

/-!
# Shortened Paths

A path is shown from the project's point of view in one of two ways. What lies below the
project's directory is shown by what follows the directory. Any other path is looked
through for the module path, and shown by what follows it.

Both ways look at texts where steps are meant. Whether a way leads down is decided by its
first two characters, so what lies below the directory is not recognized there if the
first step begins with two dots. And the module path is looked for anywhere in the text,
also where it ends or begins inside a step: a package whose path continues the module
path by more than a step is cut like one of the project's own.

This module says of every path what becomes of it. Apart from the two dots, files of the
project are shown as they should be. A path that has nothing to do with the project is
left as it is exactly if the module path does not occur in its text.

## Main definitions

* `Project.Below`: A file lies below the project's directory.
* `Project.Mentions`: The module path occurs in a text.
* `Project.MentionsWhole`: It occurs there as whole steps.
* `Project.Cut`: A path and what follows the first mention in it.
* `Project.Shortens`: What becomes of every path.

## Theorems

* `Project.cut_afterModule`, `Project.afterModule_eq_self_iff`: Paths looked through.
* `Project.shortenChars_of_below`, `Project.shortenChars_of_elsewhere`: Files.
* `Project.shorten_exact`: What becomes of every path.
-/

namespace CallAtlas

namespace Project

variable {p : Project} {path : List Char} {f rest : String}

/-- A file lies below the project's directory: the directory, a slash and what follows. -/
def Below (p : Project) (f rest : String) : Prop :=
  f.toList = Path.inside p.dir.toList ++ rest.toList ∧ rest ≠ ""

/-- The module path occurs in a text. -/
def Mentions (p : Project) (text : String) : Prop := p.modulePath.toList <:+: text.toList

/-- The module path occurs in a path as whole steps. -/
def MentionsWhole (p : Project) (text : String) : Prop :=
  Text.pieces '/' p.modulePath.toList <:+: Text.pieces '/' text.toList

/-- What follows the first mention in a path, without the slash after it. -/
def Cut (p : Project) (path out : List Char) : Prop :=
  ∃ before after, path = before ++ p.modulePath.toList ++ after ∧
    (∀ before' after', path = before' ++ p.modulePath.toList ++ after' →
      before.length ≤ before'.length) ∧
    (after = '/' :: out ∨ after.head? ≠ some '/' ∧ after = out)

/-! ## Paths looked through -/

open shortenChars (afterModule)

/-- A path without a mention is left as it is. -/
theorem afterModule_of_not_infix (h : ¬p.modulePath.toList <:+: path) :
    afterModule p path = path := by
  rw [afterModule, Text.afterFirst?_eq_none_iff.2 h]

/-- A path with a mention is cut after the first one. A slash that follows is taken away as well. -/
theorem cut_afterModule (h : p.modulePath.toList <:+: path) : p.Cut path (afterModule p path) := by
  cases hfirst : Text.afterFirst? p.modulePath.toList path with
  | none => exact absurd h (Text.afterFirst?_eq_none_iff.1 hfirst)
  | some after =>
      rcases Text.exists_first hfirst with ⟨before, hpath, hleast⟩
      refine ⟨before, after, hpath, hleast, ?_⟩
      -- The slash that follows a mention is taken away with it.
      by_cases hslash : after.head? = some '/'
      · rcases List.head?_eq_some_iff.1 hslash with ⟨out, rfl⟩
        rw [afterModule, hfirst]
        exact Or.inl rfl
      · refine Or.inr ⟨hslash, ?_⟩
        rw [afterModule, hfirst]
        split <;> simp_all

/-- To cut a path makes it shorter, if there is a module path to be found. -/
theorem length_lt_of_cut {out : List Char} (hmodule : p.modulePath ≠ "") (h : p.Cut path out) :
    out.length < path.length := by
  rcases h with ⟨before, after, hpath, _, hout⟩
  have hpos : 0 < p.modulePath.toList.length := by simpa [List.length_pos_iff] using hmodule
  have hle : out.length ≤ after.length := by
    rcases hout with rfl | ⟨_, rfl⟩
    · exact Nat.le_succ _
    · exact Nat.le_refl _
  rw [hpath, List.length_append, List.length_append]
  omega

/-- A path that is looked through is left as it is exactly if nothing is found. What is
    cut is shorter, so it cannot be the same. -/
theorem afterModule_eq_self_iff (hmodule : p.modulePath ≠ "") :
    afterModule p path = path ↔ ¬p.modulePath.toList <:+: path := by
  refine ⟨fun hsame hmentioned => ?_, afterModule_of_not_infix⟩
  have hlt := length_lt_of_cut hmodule (cut_afterModule hmentioned)
  rw [hsame] at hlt
  exact Nat.lt_irrefl _ hlt

theorem afterModule_module (p : Project) : afterModule p p.modulePath.toList = [] := by
  have hfirst := Text.afterFirst?_append p.modulePath.toList []
  rw [List.append_nil] at hfirst
  rw [afterModule, hfirst]

theorem afterModule_own (p : Project) (rest : List Char) :
    afterModule p (p.modulePath.toList ++ '/' :: rest) = rest := by
  rw [afterModule, Text.afterFirst?_append]
  rfl

/-! ## Three outcomes -/

theorem shortenChars_of_down {way : List Char}
    (hway : Path.way? (.parse p.dir.toList) (.parse path) = some way) (hdown : ¬Path.up <+: way) :
    p.shortenChars path = way := by
  have hfront : ¬(Text.afterFront? Path.up way).isSome := mt Text.afterFront?_isSome_iff.1 hdown
  simp [shortenChars, hway, hfront]

theorem shortenChars_of_up {way : List Char}
    (hway : Path.way? (.parse p.dir.toList) (.parse path) = some way) (hup : Path.up <+: way) :
    p.shortenChars path = afterModule p path := by
  have hfront : (Text.afterFront? Path.up way).isSome := Text.afterFront?_isSome_iff.2 hup
  simp [shortenChars, hway, hfront]

theorem shortenChars_of_none (hway : Path.way? (.parse p.dir.toList) (.parse path) = none) :
    p.shortenChars path = afterModule p path := by
  simp [shortenChars, hway]

/-! ## Files and packages -/

theorem shortenChars_dir (p : Project) : p.shortenChars p.dir.toList = ['.'] :=
  shortenChars_of_down (Path.way?_self _) (by decide)

/-- A file below the directory is shown by what follows, unless that begins with two
    dots. Then it is taken for a way that leads up, although it is a step with such a
    name. -/
theorem shortenChars_of_below {rest : List Char} (hdir : Path.Clean p.dir.toList)
    (hpath : Path.Clean path) (hbelow : path = Path.inside p.dir.toList ++ rest)
    (hrest : rest ≠ []) (hdots : ¬Path.up <+: rest) : p.shortenChars path = rest := by
  rcases hdir with ⟨ds, hds, hdir⟩
  rcases hpath with ⟨fs, hfs, rfl⟩
  rw [hdir] at hbelow
  have hsteps := Path.steps_of_inside hds hfs hrest hbelow
  have hpieces := Text.pieces_ne_nil '/' rest
  refine shortenChars_of_down ?_ hdots
  rw [hdir, Path.parse_joined hds, Path.parse_joined hfs, hsteps, Path.way?_of_append hpieces,
    Path.joined_pieces]

/-- A file elsewhere is looked through for the module path, and so is one below the
    directory that is not recognized there. The two are alike to the program, which
    looks at the way only. -/
theorem shortenChars_of_elsewhere (hdir : Path.Clean p.dir.toList) (hpath : Path.Clean path)
    (hne : path ≠ p.dir.toList)
    (hdots : ∀ rest, path = Path.inside p.dir.toList ++ rest → rest ≠ [] → Path.up <+: rest) :
    p.shortenChars path = afterModule p path := by
  rcases hdir with ⟨ds, hds, hdir⟩
  rcases hpath with ⟨fs, hfs, rfl⟩
  by_cases hbelow : ds <+: fs
  · -- Below the directory the way is what follows, which is assumed to begin with two dots.
    rcases hbelow with ⟨on, rfl⟩
    have hon : on ≠ [] := by
      rintro rfl
      rw [hdir, List.append_nil] at hne
      exact hne rfl
    have hjoined : Path.joined on ≠ [] :=
      Path.joined_ne_nil hon fun s hs => hfs s (List.mem_append_right ds hs)
    refine shortenChars_of_up ?_ (hdots (Path.joined on) ?_ hjoined)
    · rw [hdir, Path.parse_joined hds, Path.parse_joined hfs, Path.way?_of_append hon]
    · rw [hdir, Path.inside_append hds hon]
  · -- Elsewhere the way begins with a step up.
    rcases Path.exists_way?_up hds hbelow with ⟨way, hway, hup⟩
    refine shortenChars_of_up ?_ hup
    rw [hdir, Path.parse_joined hds, Path.parse_joined hfs, hway]

/-- What does not start at the root is looked through for the module path. -/
theorem shortenChars_of_relative (hdir : Path.Clean p.dir.toList)
    (hpath : path.head? ≠ some '/') : p.shortenChars path = afterModule p path := by
  rcases hdir with ⟨ds, hds, hdir⟩
  refine shortenChars_of_none (Path.way?_of_rooted_ne ?_)
  rw [hdir, Path.parse_joined hds]
  simp [Path.parse, hpath]

theorem owns_iff {importPath : String} : p.owns importPath ↔ importPath = p.modulePath ∨
    ∃ rest, importPath.toList = p.modulePath.toList ++ '/' :: rest := by
  simp only [owns, Bool.or_eq_true, decide_eq_true_eq, Option.isSome_iff_exists,
    Text.afterFront?_eq_some_iff, List.append_assoc, List.singleton_append]

/-- The packages of a project mention its module path. -/
theorem mentions_of_owns {importPath : String} (h : p.owns importPath) :
    p.Mentions importPath := by
  rcases owns_iff.1 h with rfl | ⟨rest, hrest⟩
  · exact List.infix_rfl
  · rw [Mentions, hrest]
    exact (List.prefix_append _ _).isInfix

/-- A mention in whole steps is a mention. The converse fails, and paths are cut all the same. -/
theorem mentions_of_mentionsWhole {text : String} (h : p.MentionsWhole text) :
    p.Mentions text := by
  have hinfix := Path.joined_infix (Text.pieces_ne_nil '/' p.modulePath.toList) h
  rwa [Path.joined_pieces, Path.joined_pieces] at hinfix

/-! ## Every path -/

/-- A path is cut after the first mention of the module path, and left as it is exactly
    if there is none. -/
structure LooksThrough (p : Project) (path : String) : Prop where
  cut : p.Mentions path → p.Cut path.toList (p.shorten path).toList
  eq_iff : p.shorten path = path ↔ ¬p.Mentions path

/-- What becomes of every path. -/
structure Shortens (p : Project) : Prop where
  /-- A file below the directory is shown by what follows. -/
  below : ∀ f rest, Path.Clean f.toList → p.Below f rest → ¬Path.up <+: rest.toList →
    p.shorten f = rest
  /-- The directory itself is shown by a dot. -/
  dir : p.shorten p.dir = "."
  /-- A file elsewhere is looked through, and so is one below the directory that begins with two
      dots there. -/
  elsewhere : ∀ f, Path.Clean f.toList → f ≠ p.dir →
    (∀ rest, p.Below f rest → Path.up <+: rest.toList) → p.LooksThrough f
  /-- A package is looked through, whether it belongs to the project or not. -/
  package : ∀ path : String, path.toList.head? ≠ some '/' → p.LooksThrough path
  /-- The package at the project's root has nothing left to show. -/
  root : p.owns p.modulePath ∧ p.shorten p.modulePath = ""
  /-- Any other package of the project is shown by what follows the module path. -/
  own : ∀ rest, p.owns (p.modulePath ++ "/" ++ rest) ∧
    p.shorten (p.modulePath ++ "/" ++ rest) = rest
  /-- Packages of the project and whole steps are mentions. -/
  mentions : ∀ path, p.owns path ∨ p.MentionsWhole path → p.Mentions path

/-- A path that is looked through is cut or left as it is. -/
theorem looksThrough_of_eq {path : String} (hmodule : p.modulePath ≠ "")
    (h : p.shortenChars path.toList = afterModule p path.toList) : p.LooksThrough path := by
  have htext : (p.shorten path).toList = afterModule p path.toList := by
    rw [shorten, String.toList_ofList, h]
  refine ⟨fun hmentioned => ?_, ?_⟩
  · rw [htext]
    exact cut_afterModule hmentioned
  · rw [← String.toList_inj, htext]
    exact afterModule_eq_self_iff hmodule

theorem shorten_module (hdir : Path.Clean p.dir.toList)
    (hrelative : p.modulePath.toList.head? ≠ some '/') : p.shorten p.modulePath = "" := by
  rw [shorten, shortenChars_of_relative hdir hrelative, afterModule_module]

theorem toList_own (p : Project) (rest : String) : (p.modulePath ++ "/" ++ rest).toList =
    p.modulePath.toList ++ '/' :: rest.toList := by
  simp

/-- A package of the project is shown by what follows the module path. It does not start
    at the root, since the module path does not. -/
theorem shorten_own (hdir : Path.Clean p.dir.toList) (hmodule : p.modulePath ≠ "")
    (hrelative : p.modulePath.toList.head? ≠ some '/') (rest : String) :
    p.shorten (p.modulePath ++ "/" ++ rest) = rest := by
  have hhead : (p.modulePath.toList ++ '/' :: rest.toList).head? ≠ some '/' := by
    have hne : p.modulePath.toList ≠ [] := by simpa using hmodule
    rwa [List.head?_append, List.head?_eq_some_head hne, Option.some_or,
      ← List.head?_eq_some_head hne]
  rw [shorten, toList_own, shortenChars_of_relative hdir hhead, afterModule_own,
    String.ofList_toList]

/-- In a project in a clean directory, files are shown from the directory unless they
    begin with two dots there. Every other path is cut after the first mention of the
    module path, also where that is no whole step, and left as it is exactly if there is
    no mention.

    The directory has to be clean for texts and steps to agree. The module path must not
    be empty, or it would be found everywhere, and must not start at the root, or it
    would be taken for a file. -/
theorem shorten_exact (p : Project) (hdir : Path.Clean p.dir.toList) (hmodule : p.modulePath ≠ "")
    (hrelative : p.modulePath.toList.head? ≠ some '/') : p.Shortens where
  below f rest hf hbelow hdots := by
    have hrest : rest.toList ≠ [] := by simpa using hbelow.2
    rw [shorten, shortenChars_of_below hdir hf hbelow.1 hrest hdots, String.ofList_toList]
  dir := by rw [shorten, shortenChars_dir]
  -- Elsewhere means that nothing of the file lies below the directory, apart from what starts
  -- with dots.
  elsewhere f hf hne hdots := by
    have htexts : f.toList ≠ p.dir.toList := by rwa [ne_eq, String.toList_inj]
    refine looksThrough_of_eq hmodule (shortenChars_of_elsewhere hdir hf htexts ?_)
    intro rest hbelow hrest
    have hlies : p.Below f (String.ofList rest) := by simpa [Below] using ⟨hbelow, hrest⟩
    simpa using hdots (String.ofList rest) hlies
  package path hpath := looksThrough_of_eq hmodule (shortenChars_of_relative hdir hpath)
  root := ⟨owns_iff.2 (Or.inl rfl), shorten_module hdir hrelative⟩
  own rest := ⟨owns_iff.2 (Or.inr ⟨rest.toList, p.toList_own rest⟩),
    shorten_own hdir hmodule hrelative rest⟩
  mentions _ h := h.elim mentions_of_owns mentions_of_mentionsWhole

/-- A module in a directory. Of three paths the first is a file, the second a package of the
    project, and the third has nothing to do with it. -/
theorem shorten_exact_service :
    let p : Project := { modulePath := "example.com/svc", dir := "/src/svc" }
    Path.Clean p.dir.toList ∧ p.Shortens ∧
      p.shorten "/src/svc/internal/db/db.go" = "internal/db/db.go" ∧
      p.shorten "example.com/svc/internal/db" = "internal/db" ∧
      p.shorten "/usr/lib/go/src/fmt/print.go" = "/usr/lib/go/src/fmt/print.go" := by
  intro p
  have hdir : Path.Clean p.dir.toList := by decide +kernel
  exact ⟨hdir, shorten_exact p hdir (by decide +kernel) (by decide +kernel), by decide +kernel,
    by decide +kernel, by decide +kernel⟩

/-- Three paths that are shown wrongly: a file of the project that is not recognized, a file of
    another version of the module and a package of another module that are cut. -/
theorem texts_taken_for_steps :
    let p : Project := { modulePath := "example.com/svc", dir := "/src/svc" }
    Path.Clean p.dir.toList ∧
      (Path.Clean "/src/svc/..cache/x.go".toList ∧ p.Below "/src/svc/..cache/x.go" "..cache/x.go" ∧
        p.shorten "/src/svc/..cache/x.go" = "/src/svc/..cache/x.go") ∧
      (Path.Clean "/go/example.com/svc@v1/x.go".toList ∧
        (∀ rest, ¬p.Below "/go/example.com/svc@v1/x.go" rest) ∧
        ¬p.MentionsWhole "/go/example.com/svc@v1/x.go" ∧
        p.shorten "/go/example.com/svc@v1/x.go" = "@v1/x.go") ∧
      ¬p.owns "example.com/svcx" ∧ p.shorten "example.com/svcx" = "x" := by
  intro p
  -- The version stands where a slash would have to be.
  have hlies : ∀ rest, ¬p.Below "/go/example.com/svc@v1/x.go" rest := by
    rintro rest ⟨hbelow, -⟩
    have hfront : Path.inside p.dir.toList <+: "/go/example.com/svc@v1/x.go".toList :=
      ⟨_, hbelow.symm⟩
    exact absurd hfront (by decide +kernel)
  have hcache : p.Below "/src/svc/..cache/x.go" "..cache/x.go" := by
    unfold Below
    decide +kernel
  have hversion : ¬p.MentionsWhole "/go/example.com/svc@v1/x.go" := by
    unfold MentionsWhole
    decide +kernel
  exact ⟨by decide +kernel, ⟨by decide +kernel, hcache, by decide +kernel⟩,
    ⟨by decide +kernel, hlies, hversion, by decide +kernel⟩, by decide +kernel, by decide +kernel⟩

end Project

end CallAtlas

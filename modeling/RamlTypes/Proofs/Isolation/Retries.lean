import RamlTypes.Proofs.Coherence.Rollback
import RamlTypes.Proofs.Isolation.Runs

/-!
# Loading again after a failure

A load that fails forgets the fragments that it was the first to read, so the next load of the path
reads them as they are by then, and does what it does in a new session (`Session.load_retried`). The
examples that it has read from files of their own stay cached. So they must not have changed if the
next load reads them, too.
-/

namespace RamlTypes

/-- What a file has as an example is what is read of it under its normal form. -/
theorem Files.hasExample_of_read {fs : Files} {root p : Path} {text : String} {e : ExampleFile}
    (hroot : root.isAbsolute) (hp : p.IsNormal root) (htext : fs.read p = .ok text)
    (he : ExampleFile.read p text = .ok e) : fs.HasExample root p.key e := by
  intro q hq hkey
  rw [hq.eq_of_components hroot hp hkey]
  exact ⟨text, htext, he⟩

namespace Session

open Store

variable {settings : LoadSettings} {s t : Store}

theorem LoadRun.fragmentRun (h : LoadRun settings s) : FragmentRun settings s := by
  induction h with
  | start files => exact .start files
  | load _ p ih => exact .load ih p
  | rewrite _ files ih => exact .rewrite ih files

/-- A load that fails leaves no fragment behind. -/
theorem LoadRun.has_fragments_of_error (h : LoadRun settings s) {p : Path} {e : Stop}
    (hfail : Load.load p s = (.error e, t)) {k : PathKey} :
    Dict.has k t.fragments ↔ Dict.has k s.fragments := by
  have hundone := (h.fragmentRun.tidy.load p).2 e t hfail
  rw [Dict.has, Dict.has, hundone.fragments]

/-- After a load has failed in an eager session and files were rewritten, the next load of the path
does what it does in a new session over the new files, with the numbers of its shapes shifted. The
condition is that none of the files that it reads in the new session was cached as a fragment before
the failure, and that none of them is cached as an example that it no longer has. -/
theorem load_retried (he : settings.eagerResolution) (hroot : settings.root.isAbsolute)
    (h : LoadRun settings s) {p : Path} {e : Stop} (hfail : Load.load p s = (.error e, t))
    (files : Files) :
    let fresh := Load.load p (.empty settings files)
    let retry := Load.load p { t with files := files }
    let shift : ShapeId → ShapeId := (t.shapes.size + ·)
    (∀ k ∈ Dict.keys fresh.2.reads, ¬ Dict.has k s.fragments ∧
      ∀ x, Dict.find? k t.examples = some x → files.HasExample settings.root k x) →
    retry.1 = fresh.1.map (Fragment.rename shift) ∧
    retry.2.shapes.toList = t.shapes.toList ++ fresh.2.shapes.toList.map (Shape.rename shift) ∧
    retry.2.diagnostics = t.diagnostics ++ fresh.2.diagnostics := by
  have hrun : LoadRun settings t := by
    have hload := h.load p
    rwa [step, perform_snd, hfail] at hload
  obtain ⟨rfl, hsettled⟩ := (hrun.rewrite files).settled he
  intro fresh retry shift hreads
  have hend : SameEnd { t with files := files } retry fresh := by
    refine hsettled.sameEnd_load_of_current hroot he p fun k hk => ?_
    obtain ⟨hnot, hexamples⟩ := hreads k (Dict.mem_keys.2 hk)
    exact ⟨fun hk => hnot ((h.has_fragments_of_error hfail).1 hk), hexamples⟩
  exact ⟨hend.1, hend.2.shapes_rename, hend.2.diagnostics⟩

/-- A type that is not defined makes a load fail whose example is cached by then. Once the type is
defined, the next load does what it does in a new session, since the example has not changed. -/
theorem load_retried_after_fix :
    let settings : LoadSettings := ⟨⟨"/"⟩, false, true⟩
    let lib : Path := ⟨"/lib.raml"⟩
    let ex : Path := ⟨"/ex.txt"⟩
    let head := "#%RAML 1.0 Library\ntypes:\n  Foo:\n    type: string\n    example: !include ex.txt\n"
    let broken : Files := .memory [(lib, head ++ "  Bar: Missing\n"), (ex, "text")]
    let fixed : Files := .memory [(lib, head ++ "  Bar: Foo\n"), (ex, "text")]
    let fresh := Load.load lib (.empty settings fixed)
    ∃ e t, Load.load lib (.empty settings broken) = (.error e, t) ∧ t.examples ≠ [] ∧ fresh.1.isOk ∧
      (Load.load lib { t with files := fixed }).1 =
        fresh.1.map (Fragment.rename (t.shapes.size + ·)) ∧
      (Load.load lib { t with files := fixed }).2.shapes.toList =
        t.shapes.toList ++ fresh.2.shapes.toList.map (Shape.rename (t.shapes.size + ·)) := by
  intro settings lib ex head broken fixed fresh
  have hroot : settings.root.isAbsolute := by decide
  have hfresh : fresh.1.isOk := by decide +kernel
  have hnormal : Path.normalizeIn settings.root ex = ex := by decide +kernel
  have htext : fixed.read ex = .ok "text" := by decide +kernel
  have hmedia : ExampleFile.mediaType ex = ("text/plain", false) := by decide +kernel
  have hread : ExampleFile.read ex "text" =
      .ok ⟨ex, "text/plain", .scalar "text" .string .unknown false⟩ := by
    rw [ExampleFile.read, hmedia]
    rfl
  have hfails : (Load.load lib (.empty settings broken)).1.isOk = false ∧
      (Load.load lib (.empty settings broken)).2.examples.isEmpty = false ∧
      (Load.load lib (.empty settings broken)).2.examples.all fun x =>
        x.1 == ex.key && x.2.path == ex && x.2.mime == "text/plain" && x.2.value.text? == some "text" &&
        x.2.value.scalarType? == some .string && x.2.value.mark == .unknown &&
        !x.2.value.isInclude := by decide +kernel
  rcases hload : Load.load lib (.empty settings broken) with ⟨e | f, t⟩
  all_goals rw [hload] at hfails
  · obtain ⟨-, hsome, hexamples⟩ := hfails
    have hcurrent : ∀ k x, Dict.find? k t.examples = some x →
        fixed.HasExample settings.root k x := by
      rintro k ⟨path, mime, value⟩ hx
      have hall := List.all_eq_true.1 hexamples _ (Dict.mem_of_find? hx)
      simp only [Bool.and_eq_true, beq_iff_eq, Bool.not_eq_true'] at hall
      obtain ⟨⟨⟨⟨⟨⟨rfl, rfl⟩, rfl⟩, hvalue⟩, htype⟩, hmark⟩, hinclude⟩ := hall
      cases value with
      | scalar text type mark isInclude =>
        cases hvalue
        cases htype
        cases hmark
        cases hinclude
        exact Files.hasExample_of_read hroot hnormal htext hread
      | _ => cases hvalue
    have hretry := load_retried rfl hroot (.start broken) hload fixed fun k _ => ⟨nofun, hcurrent k⟩
    exact ⟨e, t, rfl, List.isEmpty_eq_false_iff.1 hsome, hfresh, hretry.1, hretry.2.1⟩
  · cases hfails.1

end Session

end RamlTypes

import XmlQuery.Text.Character
import XmlQuery.Text.Split

namespace XmlQuery.Markup

/-!
# XML declarations

A processing instruction with the target `xml` declares the encoding of its document.

* `pairValue?` — the quoted value after the first occurrence of a key.
* `declaration?` — whether an instruction is a declaration, and the encoding that it names.
-/

/-- The value of `key = "value"`, in quotes of either kind, at the first occurrence of `key`;
    blanks may stand around the equals sign. -/
def pairValue? (key cs : List Char) : Option (List Char) :=
  match Text.splitAround? key cs with
  | none => none
  | some (_, afterKey) =>
    match Text.trimStart afterKey with
    | '=' :: afterEquals =>
      match Text.trimStart afterEquals with
      | quote :: value =>
        if quote = '"' ∨ quote = '\x27' then (Text.splitAt? quote value).map Prod.fst else none
      | [] => none
    | _ => none

/-- Of the contents of a processing instruction: `none` if it is no declaration, and otherwise the
    encoding it names, if any.  The target of a declaration ends at a blank or with it. -/
def declaration? (contents : List Char) : Option (Option (List Char)) :=
  match contents with
  | 'x' :: 'm' :: 'l' :: pairs =>
    if pairs.head?.all Text.isBlank then some (pairValue? "encoding".toList pairs) else none
  | _ => none

end XmlQuery.Markup

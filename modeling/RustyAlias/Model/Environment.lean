import RustyAlias.Model.Names
import RustyAlias.Rust.Chars

/-! # Reading the nameservers

`config.rs`: the list of apex nameservers, from the value of `NS_NAMES`.
-/

namespace RustyAlias

open Rust

def comma : Ascii := ⟨44, by decide⟩

def parseNsNames (raw : Option Str) (soaName : Str) : List Str :=
  let names := (((raw.getD .empty).split comma).map Str.trim).filter (!·.isEmpty)
  if names.isEmpty then [soaName] else names

example : parseNsNames (some (.ofString "ns.addr.se, ns1.addr.se")) (.ofString "ns.example.com") =
    [.ofString "ns.addr.se", .ofString "ns1.addr.se"] := by decide +kernel

end RustyAlias

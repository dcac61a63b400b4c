/-!
# Grammars

The names of the grammars that sources may be read with.

* `grammarNames`.
-/

namespace ComponentDocs

/-- The grammars that are installed. -/
def grammarNames : List String :=
  ["actionscript", "ada", "agda", "apex", "arduino", "asm", "astro", "bash", "beancount", "bibtex", "bicep",
   "bitbake", "c", "cairo", "capnp", "chatito", "clarity", "clojure", "cmake", "comment", "commonlisp", "cpon",
   "cpp", "csharp", "css", "csv", "cuda", "d", "dart", "dockerfile", "doxygen", "dtd", "elisp", "elixir", "elm",
   "embeddedtemplate", "erlang", "fennel", "firrtl", "fish", "fortran", "fsharp", "fsharp_signature", "func",
   "gdscript", "gitattributes", "gitcommit", "gitignore", "gleam", "glsl", "gn", "go", "gomod", "gosum",
   "graphql", "groovy", "gstlaunch", "hack", "hare", "haskell", "haxe", "hcl", "heex", "hlsl", "html",
   "hyprlang", "ini", "ispc", "janet", "java", "javascript", "jsdoc", "json", "jsonnet", "julia", "kconfig",
   "kdl", "kotlin", "latex", "linkerscript", "llvm", "lua", "luadoc", "luap", "luau", "magik", "make",
   "markdown", "markdown_inline", "matlab", "mermaid", "meson", "netlinx", "ninja", "nix", "nqc", "objc",
   "ocaml", "ocaml_interface", "odin", "org", "pascal", "pem", "perl", "pgn", "php", "po", "pony",
   "powershell", "printf", "prisma", "properties", "proto", "psv", "puppet", "purescript", "pymanifest",
   "python", "qmldir", "qmljs", "query", "r", "racket", "re2c", "readline", "rego", "requirements", "ron",
   "rst", "ruby", "rust", "scala", "scheme", "scss", "smali", "smithy", "solidity", "sparql", "sql",
   "squirrel", "starlark", "svelte", "swift", "tablegen", "tcl", "terraform", "test", "thrift", "toml", "tsv",
   "tsx", "twig", "typescript", "typst", "udev", "ungrammar", "uxntal", "v", "verilog", "vhdl", "vim", "vue",
   "wgsl", "xcompose", "xml", "yaml", "yuck", "zig"]

end ComponentDocs

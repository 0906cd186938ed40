import FlowScript.Playwright.Template
import FlowScript.Puppeteer.Template

/-!
# Frameworks

The automation frameworks that recordings are exported to.
-/
namespace FlowScript

inductive Framework where
  | puppeteer
  | playwrightTest
  deriving DecidableEq

namespace Framework

def all : List Framework := [puppeteer, playwrightTest]

def name : Framework → Text
  | puppeteer => "puppeteer"
  | playwrightTest => "playwright-test"

def ofName? (t : Text) : Option Framework := all.find? fun f => f.name = t

@[simp] theorem ofName?_name (f : Framework) : ofName? f.name = some f := by
  cases f <;> decide +kernel

/-- The suggested ending of a script's file name. -/
def fileExtension : Framework → Text
  | puppeteer => ".js"
  | playwrightTest => ".spec.js"

/-- The packages that a script needs. -/
def dependencies : Framework → List Text
  | puppeteer => ["puppeteer"]
  | playwrightTest => ["@playwright/test"]

def template (c : TemplateConfig) : Framework → Template
  | puppeteer => Puppeteer.template c
  | playwrightTest => Playwright.template c

/-- The template of a rendering that asks for none. -/
def defaultTemplate : Template := puppeteer.template {}

/-- The frameworks by name, with file endings and packages. -/
def catalogue : Json :=
  .obj (all.map fun f => (f.name, .obj [("extension", .str f.fileExtension),
    ("dependencies", .arr (f.dependencies.map .str))]))

end Framework

end FlowScript

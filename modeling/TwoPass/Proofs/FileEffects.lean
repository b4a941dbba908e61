import TwoPass.Command.Run
import TwoPass.Proofs.FileViews

/-! # Effects of a job on files

A job whose program cannot be read or assembled leaves all files as they are. Any other
writes its files in order, up to the first that cannot be written. Where no two of their
names stand for the same file, each file that was written holds in the end what was
written to it. -/

namespace TwoPass

variable {State File : Type} {files : FileAccess (StateM State)}

/-! ## Writing in turn -/

def FileView.targets (view : FileView File files) (state : State)
    (products : List (FileName × List UInt8)) : List File :=
  products.filterMap fun product => view.denoted? state product.1

namespace FileAccess.Writes

variable {before after : State} {products : List (FileName × List UInt8)}

end FileAccess.Writes

/-! ## The steps of a job -/

namespace Job

section

variable (view : FileView File files) (job : Job) {before : State}
include view

variable {content : List UInt8} (given : (files.read job.input before).1 = .ok content)
include given

variable {source : String} (text : Utf8.text? content = some source)
include text

variable {assembly : Assembly} (assembled : assemble job.options source = .ok assembly)
include assembled

end

end Job

end TwoPass
